import TreeRules.Bindings

/-!
# Matching a pattern against a subject

A single tree matches a marker of any span when it stands alone: the wildcards bind nothing, a
variable binds the tree. An atom matches the equal atom, a list the lists whose children the
patterns inside it match in order, from the first to the last.

Inside a list a *run marker* takes a run of consecutive children. How many is found by trying:
the lengths go up from the shortest its span allows, and stop where the patterns behind it would
have too few children left. The first length for which the rest of the same list matches is kept,
so of several run markers in one list the leftmost takes the shortest run it can. A list inside a
list keeps the run lengths it was first matched with, whatever its later siblings need.

With `strict`, a variable that occurs again must find the value it already has; without, the later
occurrence takes over the name.
-/

namespace TreeRules

namespace Expr

/-- The fewest children a list must have left for these patterns. -/
def demand (patterns : List Expr) : Nat := patterns.countP (!·.isNullable)

/-- The fewest children the marker takes inside a list. -/
def shortest (p : Expr) : Nat := if p.isNullable then 0 else 1

/-- The lengths to try, in order, for the run of marker `p`, when `available` children are left for
it and the patterns behind it. -/
def runLengths (p : Expr) (behind : List Expr) (available : Nat) : List Nat :=
  List.range' p.shortest (available + 1 - demand behind - p.shortest)

/-- Bind the name of a run marker, if it has one, to a run. -/
def bindRun (strict : Bool) (p : Expr) (es : List Expr) (b : Bindings) : Option Bindings :=
  match p with
  | .marker (some x) _ => b.extend? strict x.text (.run es)
  | _ => some b

mutual

/-- Match one tree, on top of bindings already made. -/
def matchTree (strict : Bool) (pattern subject : Expr) (b : Bindings) : Option Bindings :=
  match pattern, subject with
  | .marker none _, _ => some b
  | .marker (some x) _, e => b.extend? strict x.text (.one e)
  | .atom x, e => if e = .atom x then some b else none
  | .list ps, .list es => matchChildren strict ps es b
  | .list _, _ => none

/-- Match all of the trees, in order, on top of bindings already made. -/
def matchChildren (strict : Bool) (patterns subjects : List Expr) (b : Bindings) :
    Option Bindings :=
  match patterns with
  | [] => if subjects.isEmpty then some b else none
  | p :: ps =>
    if p.isRunMarker then
      (runLengths p ps subjects.length).findSome? fun n =>
        (bindRun strict p (subjects.take n) b).bind fun b =>
          matchChildren strict ps (subjects.drop n) b
    else
      match subjects with
      | [] => none
      | e :: es => (matchTree strict p e b).bind fun b => matchChildren strict ps es b

end

/-- Match a pattern against a subject. -/
def matchAgainst (strict : Bool) (pattern subject : Expr) : MatchResult :=
  matchTree strict pattern subject .empty

/-! ## Equations -/

@[simp] theorem matchTree_wildcard (strict : Bool) (s : Span) (e : Expr) (b : Bindings) :
    matchTree strict (.marker none s) e b = some b := by
  rw [matchTree]

@[simp] theorem matchTree_variable (strict : Bool) (x : Token) (s : Span) (e : Expr)
    (b : Bindings) :
    matchTree strict (.marker (some x) s) e b = b.extend? strict x.text (.one e) := by
  rw [matchTree]

@[simp] theorem matchTree_atom (strict : Bool) (x : Token) (e : Expr) (b : Bindings) :
    matchTree strict (.atom x) e b = if e = .atom x then some b else none := by
  rw [matchTree]

@[simp] theorem matchTree_list (strict : Bool) (ps es : List Expr) (b : Bindings) :
    matchTree strict (.list ps) (.list es) b = matchChildren strict ps es b := by
  rw [matchTree]

/-- A list matches nothing but lists. -/
theorem matchTree_list_of_not_isList {strict : Bool} {e : Expr} (he : e.isList = false)
    (ps : List Expr) (b : Bindings) : matchTree strict (.list ps) e b = none := by
  cases e with
  | atom x => simp [matchTree]
  | list es => cases he
  | marker x s => simp [matchTree]

@[simp] theorem matchChildren_nil (strict : Bool) (es : List Expr) (b : Bindings) :
    matchChildren strict [] es b = if es.isEmpty then some b else none := by
  rw [matchChildren]

/-- A run marker tries its lengths one after another. -/
theorem matchChildren_run {strict : Bool} {p : Expr} (hp : p.isRunMarker = true)
    (ps es : List Expr) (b : Bindings) :
    matchChildren strict (p :: ps) es b =
      (runLengths p ps es.length).findSome? fun n =>
        (bindRun strict p (es.take n) b).bind fun b => matchChildren strict ps (es.drop n) b := by
  rw [matchChildren.eq_def]; exact if_pos hp

/-- Any other pattern takes the first child. -/
theorem matchChildren_single {strict : Bool} {p : Expr} (hp : p.isRunMarker = false)
    (ps : List Expr) (e : Expr) (es : List Expr) (b : Bindings) :
    matchChildren strict (p :: ps) (e :: es) b =
      (matchTree strict p e b).bind fun b => matchChildren strict ps es b := by
  rw [matchChildren, if_neg (by simp [hp])]

/-- Any other pattern needs a first child. -/
theorem matchChildren_single_nil {strict : Bool} {p : Expr} (hp : p.isRunMarker = false)
    (ps : List Expr) (b : Bindings) : matchChildren strict (p :: ps) [] b = none := by
  rw [matchChildren, if_neg (by simp [hp])]

end Expr

end TreeRules
