import TreeRules.Expr.Basic

/-!
# The text of a tree

The canonical text of a tree: an atom is its name, a marker its name (if it has one) and one to
three underscores, a list its children between parentheses with one space between two of them.
-/

namespace TreeRules.Expr

/-- The word a marker is written as. -/
def markerChars (name : Option Token) (span : Span) : List Char :=
  (name.elim [] Token.chars) ++ List.replicate span.underscores '_'

mutual

/-- The text of a tree. -/
def render : Expr → String
  | .atom name => name.text
  | .list cs => "(" ++ renderAll cs ++ ")"
  | .marker name span => String.ofList (markerChars name span)

/-- The texts of several trees, with one space between two of them. -/
def renderAll : List Expr → String
  | [] => ""
  | [e] => render e
  | e :: e' :: es => render e ++ " " ++ renderAll (e' :: es)

end

instance : ToString Expr := ⟨render⟩

@[simp] theorem render_atom (name : Token) : (atom name).render = name.text := by
  rw [render]

@[simp] theorem render_list (cs : List Expr) : (list cs).render = "(" ++ renderAll cs ++ ")" := by
  rw [render]

@[simp] theorem render_marker (name : Option Token) (span : Span) :
    (marker name span).render = String.ofList (markerChars name span) := by
  rw [render]

/-- The texts of several trees are joined by single spaces. -/
theorem renderAll_eq_intercalate (es : List Expr) :
    renderAll es = " ".intercalate (es.map render) := by
  induction es with
  | nil => rfl
  | cons e es ih =>
    cases es with
    | nil => simp [renderAll]
    | cons e' es => simp [renderAll, ih, String.append_assoc]

end TreeRules.Expr
