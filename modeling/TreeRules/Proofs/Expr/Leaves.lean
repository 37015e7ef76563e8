import TreeRules.Proofs.Expr.Positions

/-!
# Leaves of a tree

The leaves of a tree are its atoms and its markers; lists only hold them together, and an empty list
has none. A tree has markers exactly if one of its leaves is a marker (`hasMarkers_iff`).
-/

namespace TreeRules

namespace Expr

mutual

/-- The atoms and markers of a tree in pre-order, with repetitions. -/
def leaves : Expr → List Expr
  | .atom x => [.atom x]
  | .list cs => leavesAll cs
  | .marker x s => [.marker x s]

/-- The leaves of several trees, from the first tree to the last. -/
def leavesAll : List Expr → List Expr
  | [] => []
  | e :: es => leaves e ++ leavesAll es

end

variable {e l u : Expr} {es : List Expr}

theorem leavesAll_append (cs ds : List Expr) :
    leavesAll (cs ++ ds) = leavesAll cs ++ leavesAll ds := by
  induction cs with
  | nil => rfl
  | cons c cs ih => rw [List.cons_append, leavesAll, leavesAll, ih, List.append_assoc]

theorem mem_leavesAll_iff : l ∈ leavesAll es ↔ ∃ e ∈ es, l ∈ e.leaves := by
  induction es with
  | nil => simp [leavesAll]
  | cons e es ih => simp [leavesAll, ih]

theorem mem_leaves_list_iff : l ∈ (list es).leaves ↔ ∃ e ∈ es, l ∈ e.leaves := by
  rw [leaves, mem_leavesAll_iff]

/-- The leaves of a subtree are leaves of the tree. -/
theorem mem_leaves_of_at? {path : List Nat} (hu : e.at? path = some u) (hl : l ∈ u.leaves) :
    l ∈ e.leaves := by
  induction path generalizing e with
  | nil =>
    cases hu
    exact hl
  | cons i path ih =>
    obtain ⟨c, hc, hbelow⟩ := at?_cons_eq_some_iff.mp hu
    cases e with
    | atom x => cases hc
    | list cs => exact mem_leaves_list_iff.mpr ⟨c, List.mem_of_getElem? hc, ih hbelow⟩
    | marker x s => cases hc

mutual

theorem hasMarkers_iff {e : Expr} : e.hasMarkers = true ↔ ∃ l ∈ e.leaves, l.isMarker = true := by
  match e with
  | .atom x => simp [hasMarkers, leaves, isMarker]
  | .list cs => rw [hasMarkers, leaves, anyHasMarkers_iff]
  | .marker x s => simp [hasMarkers, leaves, isMarker]

theorem anyHasMarkers_iff {es : List Expr} :
    anyHasMarkers es = true ↔ ∃ l ∈ leavesAll es, l.isMarker = true := by
  match es with
  | [] => simp [anyHasMarkers, leavesAll]
  | e :: es =>
    rw [anyHasMarkers, leavesAll, Bool.or_eq_true, hasMarkers_iff, anyHasMarkers_iff]
    simp [or_and_right, exists_or]

end

end Expr

end TreeRules
