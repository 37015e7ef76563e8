import TreeRules.Template

/-!
# Replacing what matches

A `Replacement` puts its template, filled in with the bindings of the match, in place of what its
pattern matches. `atRoot` tries the whole tree only. `pass` replaces every *outermost* match, all of
them and each once: a subtree that matches is replaced, and neither it nor what takes its place is
looked into again; where a list does not match, its children are tried in turn.

A pass that finds no match answers `none`, so that "unchanged" is told apart from "replaced by the
same tree", and unchanged subtrees stay the objects they were.
-/

namespace TreeRules

/-- A pattern and what replaces it. -/
structure Replacement where
  /-- what is looked for -/
  pattern : Expr
  /-- what takes its place -/
  template : Expr
  /-- must a variable that occurs again find the value it already has? -/
  strict : Bool := false

namespace Replacement

/-- The bindings with which the pattern matches a tree. -/
def matches? (r : Replacement) (e : Expr) : MatchResult := Expr.matchAgainst r.strict r.pattern e

/-- Replace a tree if the pattern matches the whole of it. -/
def atRoot (r : Replacement) (e : Expr) : Option Expr :=
  (r.matches? e).map fun b => r.template.fill b

mutual

/-- Replace all outermost matches in a tree. -/
def pass (r : Replacement) (e : Expr) : Option Expr :=
  match r.atRoot e with
  | some e' => some e'
  | none =>
    match e with
    | .list cs => (passAll r cs).map .list
    | _ => none

/-- Replace all outermost matches in a list of trees. -/
def passAll (r : Replacement) (es : List Expr) : Option (List Expr) :=
  match es with
  | [] => none
  | e :: es =>
    match pass r e, passAll r es with
    | none, none => none
    | e', es' => some (e'.getD e :: es'.getD es)

end

/-! ## Equations -/

/-- A tree that matches is replaced, whatever is inside it. -/
theorem pass_of_atRoot {r : Replacement} {e e' : Expr} (h : r.atRoot e = some e') :
    r.pass e = some e' := by
  rw [pass.eq_def, h]

/-- Where a list does not match, its children have their turn. -/
theorem pass_list {r : Replacement} {cs : List Expr} (h : r.atRoot (.list cs) = none) :
    r.pass (.list cs) = (r.passAll cs).map .list := by
  rw [pass.eq_def, h]

/-- A leaf that does not match stays. -/
theorem pass_leaf {r : Replacement} {e : Expr} (h : r.atRoot e = none) (he : e.isList = false) :
    r.pass e = none := by
  rw [pass.eq_def, h]
  cases e <;> simp_all [Expr.isList]

@[simp] theorem passAll_nil (r : Replacement) : r.passAll [] = none := by
  rw [passAll]

/-- Each tree is replaced that has a match in it. -/
theorem passAll_cons_getD (r : Replacement) (e : Expr) (es : List Expr) :
    (r.passAll (e :: es)).getD (e :: es) = (r.pass e).getD e :: (r.passAll es).getD es := by
  rw [passAll]
  cases r.pass e <;> cases r.passAll es <;> rfl

end Replacement

end TreeRules
