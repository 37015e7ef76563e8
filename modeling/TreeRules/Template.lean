import TreeRules.Matching

/-!
# Filling in templates

In a template the atoms that name variables stand for their values. One tree takes the atom's place;
a run is spliced into the list around the atom, so that `(g xs)` with `xs` bound to `1 2` is
`(g 1 2)`. An atom that is the whole template has no list around it, and a run bound to it becomes
the list of its trees behind the head `Sequence`. Markers are kept, and so are atoms that name
nothing.
-/

namespace TreeRules

namespace Expr

/-- The run that an atom inside a list is bound to. -/
def spliced? (template : Expr) (b : Bindings) : Option (List Expr) :=
  match template with
  | .atom x =>
    match b.find? x.text with
    | some (.run es) => some es
    | _ => none
  | _ => none

mutual

/-- Put the bound values in place of the atoms that name them. -/
def fill (template : Expr) (b : Bindings) : Expr :=
  match template with
  | .atom x =>
    match b.find? x.text with
    | some (.one e) => e
    | some (.run es) => .list (.atom Token.sequence :: es)
    | _ => .atom x
  | .list cs => .list (fillAll cs b)
  | .marker name span => .marker name span

/-- Fill in the children of a list, splicing the runs. -/
def fillAll (templates : List Expr) (b : Bindings) : List Expr :=
  match templates with
  | [] => []
  | c :: cs => (spliced? c b).getD [fill c b] ++ fillAll cs b

end

/-! ## Equations -/

/-- A name without a value is kept. -/
theorem fill_atom_of_none {b : Bindings} {x : Token} (h : b.find? x.text = none) :
    fill (.atom x) b = .atom x := by
  rw [fill, h]

/-- A name bound to a tree becomes the tree. -/
theorem fill_atom_of_one {b : Bindings} {x : Token} {e : Expr}
    (h : b.find? x.text = some (.one e)) : fill (.atom x) b = e := by
  rw [fill, h]

/-- A name bound to a run, where there is no list around it, becomes a list. -/
theorem fill_atom_of_run {b : Bindings} {x : Token} {es : List Expr}
    (h : b.find? x.text = some (.run es)) :
    fill (.atom x) b = .list (.atom Token.sequence :: es) := by
  rw [fill, h]

@[simp] theorem fill_list (cs : List Expr) (b : Bindings) :
    fill (.list cs) b = .list (fillAll cs b) := by
  rw [fill]

@[simp] theorem fill_marker (name : Option Token) (span : Span) (b : Bindings) :
    fill (.marker name span) b = .marker name span := by
  rw [fill]

@[simp] theorem fillAll_nil (b : Bindings) : fillAll [] b = [] := by
  rw [fillAll]

theorem fillAll_cons (c : Expr) (cs : List Expr) (b : Bindings) :
    fillAll (c :: cs) b = (spliced? c b).getD [fill c b] ++ fillAll cs b := by
  rw [fillAll]

end Expr

/-- The wording when a template is to be filled in from a failed match. -/
def MatchResult.noBindings : String := "cannot bind a template against a failed match"

/-- Fill in a template from the result of a match, which must have succeeded. -/
def MatchResult.fill (r : MatchResult) (template : Expr) : Except String Expr :=
  match r with
  | some b => .ok (template.fill b)
  | none => .error noBindings

end TreeRules
