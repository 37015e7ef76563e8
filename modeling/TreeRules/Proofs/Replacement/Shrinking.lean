import Mathlib.Algebra.Order.BigOperators.Group.List
import Mathlib.Algebra.Order.Ring.Nat
import Mathlib.Data.Nat.Find
import TreeRules.Proofs.Matching.Search
import TreeRules.Proofs.Replacement.NormalForm

/-!
# Shrinking replacements come to an end within the size of the tree

The size of a tree is its number of nodes. A replacement *shrinks* if what takes the place of a
match is always smaller than the match. A pass replaces any number of matches at once, and all that
it leaves alone keeps its size, so a pass that changes a tree makes it smaller
(`size_passed_lt_of_pass`). By the time `k` passes have changed a tree, it has lost at least `k`
nodes (`size_iterate_passed_add_le`). One node is always left, so the first tree that a pass does
not change has a number smaller than the size of the tree (`exists_first_normal`), and a limit of
that size leaves room for the pass that finds this out.
-/

namespace TreeRules

namespace Expr

/-! ## Size of a tree -/

mutual

/-- The number of nodes: a leaf is one, a list is one more than its children have together. -/
def size : Expr → Nat
  | .atom _ => 1
  | .list cs => sizeAll cs + 1
  | .marker _ _ => 1

/-- The number of nodes of several trees. -/
def sizeAll : List Expr → Nat
  | [] => 0
  | e :: es => size e + sizeAll es

end

@[simp] theorem size_list (cs : List Expr) : (list cs).size = sizeAll cs + 1 := by
  rw [size]

@[simp] theorem sizeAll_nil : sizeAll [] = 0 := by
  rw [sizeAll]

@[simp] theorem sizeAll_cons (e : Expr) (es : List Expr) :
    sizeAll (e :: es) = e.size + sizeAll es := by
  rw [sizeAll]

/-- A tree has at least its root. -/
theorem one_le_size (e : Expr) : 1 ≤ e.size := by
  cases e with
  | atom x => exact Nat.le_refl 1
  | list cs => exact Nat.succ_pos _
  | marker x s => exact Nat.le_refl 1

theorem sizeAll_eq_sum (es : List Expr) : sizeAll es = (es.map size).sum := by
  induction es with
  | nil => rfl
  | cons e es ih => rw [sizeAll_cons, List.map_cons, List.sum_cons, ih]

/-- Several trees together are smaller when none has grown and one is smaller. -/
theorem sizeAll_map_lt {f : Expr → Expr} {es : List Expr} (hle : ∀ e ∈ es, (f e).size ≤ e.size)
    (hlt : ∃ e ∈ es, (f e).size < e.size) : sizeAll (es.map f) < sizeAll es := by
  rw [sizeAll_eq_sum, sizeAll_eq_sum, List.map_map]
  exact List.sum_lt_sum _ _ hle hlt

end Expr

namespace Replacement

open TreeRules.Expr

variable {r : Replacement} {e : Expr} {limit : Int} {k : Nat}

/-- What takes the place of a match is smaller than the match. -/
def Shrinks (r : Replacement) : Prop :=
  ∀ ⦃e e' : Expr⦄, r.atRoot e = some e' → e'.size < e.size

/-! ## One pass -/

/-- A pass that changes the tree makes it smaller. -/
theorem size_passed_lt_of_pass (h : r.Shrinks) (hchanged : (r.pass e).isSome = true) :
    (r.passed e).size < e.size := by
  induction e using induction_on_children with
  | step e ih =>
    cases hmatch : r.matches? e with
    | some b =>
      rw [passed_of_matches hmatch]
      exact h (atRoot_of_matches hmatch)
    | none =>
      -- the change is in a child, and the other children change in the same way or not at all
      obtain ⟨c, hc, hchild⟩ : ∃ c ∈ e.children, (r.pass c).isSome = true := by
        rw [pass_isSome_iff, hmatch] at hchanged
        exact hchanged.resolve_left Bool.false_ne_true
      have hle : ∀ d ∈ e.children, (r.passed d).size ≤ d.size := by
        intro d hd
        cases hd' : r.pass d with
        | none => exact Nat.le_of_eq (congrArg size (passed_of_pass_eq_none hd'))
        | some d' => exact Nat.le_of_lt (ih d hd (by rw [hd']; rfl))
      have hlt := sizeAll_map_lt hle ⟨c, hc, ih c hc hchild⟩
      cases e with
      | atom x => cases hc
      | marker x s => cases hc
      | list cs =>
        rw [passed_list hmatch, size_list, size_list]
        exact Nat.succ_lt_succ hlt

/-! ## Pass after pass -/

/-- As long as passes change the tree, each takes a node from it. -/
theorem size_iterate_passed_add_le (h : r.Shrinks)
    (hchanged : ∀ i < k, (r.pass (r.passed^[i] e)).isSome = true) :
    (r.passed^[k] e).size + k ≤ e.size := by
  induction k with
  | zero => exact Nat.le_refl _
  | succ k ih =>
    have hbefore := ih fun i hi => hchanged i (Nat.lt_succ_of_lt hi)
    have hlast := size_passed_lt_of_pass h (hchanged k (Nat.lt_succ_self k))
    rw [Function.iterate_succ_apply']
    omega

/-- Some pass changes nothing, and its number is smaller than the size of the tree. -/
theorem exists_first_normal (h : r.Shrinks) (e : Expr) :
    ∃ k < e.size, (∀ i < k, (r.pass (r.passed^[i] e)).isSome = true) ∧
      r.pass (r.passed^[k] e) = none := by
  have hend : ∃ k, ¬ (r.pass (r.passed^[k] e)).isSome = true := by
    by_contra hnone
    -- otherwise there would be enough passes to take all nodes
    have hsize := size_iterate_passed_add_le h (k := e.size) fun i _ => by
      by_contra hi
      exact hnone ⟨i, hi⟩
    have hroot := one_le_size (r.passed^[e.size] e)
    omega
  have hfirst : ∀ i < Nat.find hend, (r.pass (r.passed^[i] e)).isSome = true := by
    intro i hi
    exact not_not.mp (Nat.find_min hend hi)
  have hsize := size_iterate_passed_add_le h hfirst
  have hroot := one_le_size (r.passed^[Nat.find hend] e)
  exact ⟨Nat.find hend, by omega, hfirst, Option.not_isSome_iff_eq_none.mp (Nat.find_spec hend)⟩

/-- **A shrinking replacement has a result for every limit from the size of the tree on.** -/
theorem normalize_of_shrinks (h : r.Shrinks) (s : Expr) (hlimit : (s.size : Int) ≤ limit) :
    ∃ s', r.normalize limit s = .ok s' := by
  obtain ⟨k, hk, hchanged, hnone⟩ := exists_first_normal h s
  refine ⟨r.passed^[k] s, normalize_eq_ok_iff.mpr ⟨k, ?_, rfl, hchanged, ?_⟩⟩
  · omega
  · exact pass_eq_none_iff.mp hnone

/-- Taking a lone tree out of its list shrinks: one list less is there. -/
theorem shrinks_of_unwrapping (x : Token) (strict : Bool) :
    Shrinks ⟨.list [.marker (some x) .one], .atom x, strict⟩ := by
  intro e e' h
  obtain ⟨b, hb, rfl⟩ := Option.map_eq_some_iff.mp h
  obtain ⟨a, hfits, -, rfl⟩ := matchTree_sound hb
  obtain ⟨es, rfl, hall⟩ := fits_list_iff.mp hfits
  obtain ⟨d, ds, v, vs, rfl, rfl, hd, hds⟩ := (fitsAll_single_iff rfl).mp hall
  obtain rfl := fits_marker_iff.mp hd
  obtain ⟨rfl, rfl⟩ := fitsAll_nil_iff.mp hds
  have hvalue : fill (.atom x) (.overwrite .empty [(x.text, .one d)]) = d :=
    fill_atom_of_one (Bindings.find?_insert_self .empty x.text (.one d))
  calc (fill (.atom x) (.overwrite .empty [(x.text, .one d)])).size
    _ = d.size := congrArg size hvalue
    _ < (Expr.list [d]).size := by simp

/-- With `(x_)` replaced by `x`, the tree `((a))` has the size three. Two passes unwrap it, and the
third one finds nothing, so no smaller limit is enough. -/
theorem normalize_of_shrinks_twice_wrapped :
    let a : Expr := .atom (.letter 'a' rfl)
    let x : Token := .letter 'x' rfl
    let r : Replacement := ⟨.list [.marker (some x) .one], .atom x, false⟩
    let s : Expr := .list [.list [a]]
    r.Shrinks ∧ (s.size : Int) = 3 ∧ (∃ s', r.normalize 3 s = .ok s') ∧
      r.normalize 2 s = .error (.exhausted 2) := by
  intro a x r s
  have hshrinks : r.Shrinks := shrinks_of_unwrapping x false
  have hsize : (s.size : Int) = 3 := by decide
  exact ⟨hshrinks, hsize, normalize_of_shrinks hshrinks s hsize.le, rfl⟩

end Replacement

end TreeRules
