import TreeRules.Expr.Basic

/-!
# Positions in a tree

A position is the path of child numbers from the root to a node; the empty path is the root. `at?`
goes down a path, so it recurses on the path and not on the tree. A position is around another one
if it is a prefix of it.
-/

namespace TreeRules

namespace Expr

variable {e u : Expr} {i : Nat} {path : List Nat}

/-- The subtree at a position; there is none where the path leaves the tree. -/
def at? (e : Expr) : List Nat → Option Expr
  | [] => some e
  | i :: path => e.children[i]?.bind fun c => c.at? path

@[simp] theorem at?_nil (e : Expr) : e.at? [] = some e := rfl

theorem at?_cons (e : Expr) (i : Nat) (path : List Nat) :
    e.at? (i :: path) = e.children[i]?.bind fun c => c.at? path := rfl

theorem at?_cons_of_child {c : Expr} (hc : e.children[i]? = some c) (path : List Nat) :
    e.at? (i :: path) = c.at? path := by
  rw [at?_cons, hc, Option.bind_some]

theorem at?_cons_eq_some_iff :
    e.at? (i :: path) = some u ↔ ∃ c, e.children[i]? = some c ∧ c.at? path = some u := by
  rw [at?_cons, Option.bind_eq_some_iff]

/-- A tree that is no list has no children. -/
theorem children_of_not_isList (h : e.isList = false) : e.children = [] := by
  cases e with
  | atom x => rfl
  | list cs => cases h
  | marker x s => rfl

/-- A list is the list of its children. -/
theorem eq_list_of_isList (h : e.isList = true) : e = .list e.children := by
  cases e with
  | atom x => cases h
  | list cs => rfl
  | marker x s => cases h

/-- What a tree has as soon as all its children have it, every tree has. -/
@[elab_as_elim]
theorem induction_on_children {motive : Expr → Prop}
    (step : ∀ e : Expr, (∀ c ∈ e.children, motive c) → motive e) (e : Expr) : motive e := by
  match e with
  | .atom x => exact step _ fun c hc => absurd hc List.not_mem_nil
  | .list cs => exact step _ fun c hc => induction_on_children step c
  | .marker x s => exact step _ fun c hc => absurd hc List.not_mem_nil
termination_by sizeOf e
decreasing_by
  have hlt : sizeOf c < sizeOf cs := List.sizeOf_lt_of_mem hc
  simp only [list.sizeOf_spec]
  omega

end Expr

end TreeRules
