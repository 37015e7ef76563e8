import Mathlib.Logic.Function.Iterate
import TreeRules.Proofs.Replacement.Outermost
import TreeRules.Replacement.Fixpoint

/-!
# The first normal form within the limit

A tree is normal if no subtree of it matches, and this is what a pass finds out that changes nothing
(`pass_eq_none_iff`). The trees `r.passed^[0] e`, `r.passed^[1] e`, … are those that pass after pass
makes of `e`. Replacing until nothing matches answers the first of them that is normal, provided
that it comes early enough: the pass that finds it normal counts as well, so its number has to be
smaller than the limit (`normalize_eq_ok_iff`). A sequence of trees that comes back to an earlier
one by a pass that changed something goes round for ever, and no limit is enough
(`normalize_of_cycle`).
-/

namespace TreeRules

namespace Replacement

open TreeRules.Expr

variable {r : Replacement} {e e' : Expr} {limit : Int} {k m : Nat}

/-! ## Normal trees -/

/-- No subtree matches, the tree itself included. -/
def IsNormal (r : Replacement) (e : Expr) : Prop :=
  ∀ path u, e.at? path = some u → r.matches? u = none

/-- A pass changes nothing exactly if the tree is normal. -/
theorem pass_eq_none_iff : r.pass e = none ↔ r.IsNormal e := by
  rw [← Option.not_isSome_iff_eq_none, pass_isSome_iff_exists_outermost]
  constructor
  · intro h path u hu
    rw [← Option.not_isSome_iff_eq_none]
    intro hm
    obtain ⟨outer, -, houtermost⟩ := exists_outermost_prefix ⟨u, hu, hm⟩
    exact h ⟨outer, houtermost⟩
  · rintro h ⟨path, ⟨u, hu, hm⟩, -⟩
    rw [h path u hu] at hm
    cases hm

theorem passed_of_pass_eq_none (h : r.pass e = none) : r.passed e = e := by
  rw [passed, h, Option.getD_none]

theorem passed_of_pass_eq_some (h : r.pass e = some e') : r.passed e = e' := by
  rw [passed, h, Option.getD_some]

/-! ## Pass after pass -/

/-- Making passes stops at the first tree that a pass does not change. -/
theorem iterate_eq_some_iff {limit done n : Nat} :
    r.iterate limit done e = some (e', n) ↔
      ∃ k < limit, e' = r.passed^[k] e ∧ n = done + k ∧
        (∀ i < k, (r.pass (r.passed^[i] e)).isSome = true) ∧ r.pass e' = none := by
  induction limit generalizing done e with
  | zero =>
    rw [iterate]
    constructor
    · intro h
      cases h
    · rintro ⟨k, hk, -⟩
      exact absurd hk (Nat.not_lt_zero k)
  | succ limit ih =>
    rw [iterate]
    cases hpass : r.pass e with
    | none =>
      constructor
      · intro h
        cases h
        exact ⟨0, Nat.succ_pos limit, rfl, rfl, fun i hi => absurd hi (Nat.not_lt_zero i), hpass⟩
      · rintro ⟨k, -, rfl, rfl, hchanged, -⟩
        -- the very first pass changes nothing
        obtain rfl : k = 0 := by
          by_contra hk
          have hfirst := hchanged 0 (Nat.pos_of_ne_zero hk)
          rw [Function.iterate_zero_apply, hpass] at hfirst
          cases hfirst
        rfl
    | some e₁ =>
      have hnext := passed_of_pass_eq_some hpass
      rw [ih]
      constructor
      · rintro ⟨k, hk, rfl, rfl, hchanged, hnone⟩
        refine ⟨k + 1, Nat.succ_lt_succ hk, ?_, by omega, fun i hi => ?_, hnone⟩
        · rw [Function.iterate_succ_apply, hnext]
        · cases i with
          | zero => rw [Function.iterate_zero_apply, hpass]; rfl
          | succ i =>
            rw [Function.iterate_succ_apply, hnext]
            exact hchanged i (Nat.lt_of_succ_lt_succ hi)
      · rintro ⟨k, hk, rfl, rfl, hchanged, hnone⟩
        cases k with
        | zero =>
          rw [Function.iterate_zero_apply, hpass] at hnone
          cases hnone
        | succ k =>
          rw [Function.iterate_succ_apply, hnext] at hnone ⊢
          refine ⟨k, Nat.lt_of_succ_lt_succ hk, rfl, by omega, fun i hi => ?_, hnone⟩
          have hlater := hchanged (i + 1) (Nat.succ_lt_succ hi)
          rwa [Function.iterate_succ_apply, hnext] at hlater

/-- **The result is the first normal form, if its number is smaller than the limit.** -/
theorem normalize_eq_ok_iff :
    r.normalize limit e = .ok e' ↔
      ∃ k : Nat, (k : Int) < limit ∧ e' = r.passed^[k] e ∧
        (∀ i < k, (r.pass (r.passed^[i] e)).isSome = true) ∧ r.IsNormal e' := by
  have hfound : r.normalize limit e = .ok e' ↔
      1 ≤ limit ∧ ∃ n, r.iterate limit.toNat 0 e = some (e', n) := by
    rw [normalize]
    split
    · rename_i hlimit
      constructor
      · intro h
        cases h
      · rintro ⟨hpos, -⟩
        omega
    · rename_i hlimit
      rw [and_iff_right (Int.not_lt.mp hlimit)]
      rcases r.iterate limit.toNat 0 e with _ | ⟨t, n⟩
      · simp
      · simp
  rw [hfound]
  constructor
  · rintro ⟨hpos, n, hiterate⟩
    obtain ⟨k, hk, rfl, -, hchanged, hnone⟩ := iterate_eq_some_iff.mp hiterate
    exact ⟨k, by omega, rfl, hchanged, pass_eq_none_iff.mp hnone⟩
  · rintro ⟨k, hk, rfl, hchanged, hnormal⟩
    refine ⟨by omega, k, iterate_eq_some_iff.mpr ?_⟩
    exact ⟨k, by omega, rfl, (Nat.zero_add k).symm, hchanged, pass_eq_none_iff.mpr hnormal⟩

/-- A limit that leaves a pass is either enough or exhausted. -/
theorem normalize_eq_exhausted (hlimit : 1 ≤ limit) (h : ∀ e', r.normalize limit e ≠ .ok e') :
    r.normalize limit e = .error (.exhausted limit) := by
  rw [normalize, if_neg (Int.not_lt.mpr hlimit)] at h ⊢
  cases hiterate : r.iterate limit.toNat 0 e with
  | none => rfl
  | some found =>
    rw [hiterate] at h
    exact absurd rfl (h found.1)

theorem normalize_badLimit (r : Replacement) (e : Expr) (hlimit : limit < 1) :
    r.normalize limit e = .error (.badLimit limit) := by
  rw [normalize, if_pos hlimit]

/-! ## More passes -/

/-- A larger limit changes no result. -/
theorem normalize_mono {limit' : Int} (h : r.normalize limit e = .ok e') (hle : limit ≤ limit') :
    r.normalize limit' e = .ok e' := by
  obtain ⟨k, hk, heq, hchanged, hnormal⟩ := normalize_eq_ok_iff.mp h
  exact normalize_eq_ok_iff.mpr ⟨k, Int.lt_of_lt_of_le hk hle, heq, hchanged, hnormal⟩

/-- A normal tree is its own result. -/
theorem normalize_of_isNormal (h : r.IsNormal e) (hlimit : 1 ≤ limit) :
    r.normalize limit e = .ok e := by
  refine normalize_eq_ok_iff.mpr ⟨0, by omega, rfl, fun i hi => ?_, h⟩
  exact absurd hi (Nat.not_lt_zero i)

/-- Once a pass changes nothing, no later one does. -/
theorem iterate_passed_of_le (h : r.pass (r.passed^[k] e) = none) (hle : k ≤ m) :
    r.passed^[m] e = r.passed^[k] e := by
  induction hle with
  | refl => rfl
  | step _ ih => rw [Function.iterate_succ_apply', ih, passed_of_pass_eq_none h]

/-- Where a pass that changes the tree comes back to an earlier tree, all trees are among the ones
seen so far, and a pass changes each of these. -/
theorem pass_isSome_of_cycle {i j : Nat} (hij : i ≤ j)
    (hchanged : (r.pass (r.passed^[j] e)).isSome = true)
    (hback : r.passed^[j + 1] e = r.passed^[i] e) (m : Nat) :
    (r.pass (r.passed^[m] e)).isSome = true := by
  have hseen : ∃ l ≤ j, r.passed^[m] e = r.passed^[l] e := by
    induction m with
    | zero => exact ⟨0, Nat.zero_le j, rfl⟩
    | succ m ih =>
      obtain ⟨l, hl, heq⟩ := ih
      have hnext : r.passed^[m + 1] e = r.passed^[l + 1] e := by
        rw [Function.iterate_succ_apply', heq, Function.iterate_succ_apply']
      by_cases hlast : l = j
      · exact ⟨i, hij, hnext.trans (hlast ▸ hback)⟩
      · exact ⟨l + 1, by omega, hnext⟩
  obtain ⟨l, hl, heq⟩ := hseen
  rw [heq]
  by_contra hnot
  -- otherwise nothing would have changed from the tree with number `l` on
  rw [Option.not_isSome_iff_eq_none] at hnot
  rw [iterate_passed_of_le hnot hl, hnot] at hchanged
  cases hchanged

/-- A pass that changes the tree and comes back to an earlier one exhausts every limit. -/
theorem normalize_of_cycle {i j : Nat} (hij : i ≤ j)
    (hchanged : (r.pass (r.passed^[j] e)).isSome = true)
    (hback : r.passed^[j + 1] e = r.passed^[i] e) (hlimit : 1 ≤ limit) :
    r.normalize limit e = .error (.exhausted limit) := by
  refine normalize_eq_exhausted hlimit fun e' h => ?_
  obtain ⟨k, -, rfl, -, hnormal⟩ := normalize_eq_ok_iff.mp h
  have hagain := pass_isSome_of_cycle hij hchanged hback k
  rw [pass_eq_none_iff.mpr hnormal] at hagain
  cases hagain

/-- **Replacing until nothing matches finds exactly the first normal form within the limit.** There
is a result if one of the trees that pass after pass makes is normal, its number is smaller than the
limit, and all before it are changed; otherwise the limit is exhausted, or refused if it is below
one. So a result is normal, is the result for every larger limit and for itself, and there is none
where a pass that changes the tree comes back to an earlier one. -/
theorem normalize_first_normal_form (r : Replacement) (limit : Int) (s : Expr) :
    (∀ s', r.normalize limit s = .ok s' ↔
        ∃ k : Nat, (k : Int) < limit ∧ s' = r.passed^[k] s ∧
          (∀ i < k, (r.pass (r.passed^[i] s)).isSome = true) ∧ r.IsNormal s') ∧
      (1 ≤ limit → (∀ s', r.normalize limit s ≠ .ok s') →
        r.normalize limit s = .error (.exhausted limit)) ∧
      (limit < 1 → r.normalize limit s = .error (.badLimit limit)) ∧
      (∀ s', r.normalize limit s = .ok s' →
        r.IsNormal s' ∧ (∀ limit', limit ≤ limit' → r.normalize limit' s = .ok s') ∧
          ∀ limit', 1 ≤ limit' → r.normalize limit' s' = .ok s') ∧
      ∀ i j, i ≤ j → (r.pass (r.passed^[j] s)).isSome = true →
        r.passed^[j + 1] s = r.passed^[i] s → 1 ≤ limit →
        r.normalize limit s = .error (.exhausted limit) := by
  refine ⟨fun s' => normalize_eq_ok_iff, normalize_eq_exhausted, normalize_badLimit r s,
    fun s' h => ?_, fun i j => normalize_of_cycle⟩
  obtain ⟨-, -, -, -, hnormal⟩ := normalize_eq_ok_iff.mp h
  exact ⟨hnormal, fun limit' => normalize_mono h, fun limit' => normalize_of_isNormal hnormal⟩

/-- With `(x a_)` replaced by `(y a)`, two passes change `(x (x z))`, so that a limit of three is
needed to find `(y (y z))`. With `x` replaced by itself, no limit is enough for `x`. -/
theorem normalize_nested_pair :
    let name (c : Char) (h : isNameChar c = true) : Expr := .atom (.letter c h)
    let a : Expr := name 'a' rfl
    let x : Expr := name 'x' rfl
    let y : Expr := name 'y' rfl
    let z : Expr := name 'z' rfl
    let r : Replacement := ⟨.list [x, .marker (some (.letter 'a' rfl)) .one], .list [y, a], false⟩
    let s : Expr := .list [x, .list [x, z]]
    let t : Expr := .list [y, .list [y, z]]
    let idle : Replacement := ⟨x, x, false⟩
    r.normalize 3 s = .ok t ∧ r.IsNormal t ∧ r.normalize 1000 s = .ok t ∧ r.normalize 1 t = .ok t ∧
      (∀ s', r.normalize 2 s ≠ .ok s') ∧ r.normalize 2 s = .error (.exhausted 2) ∧
      r.normalize 0 s = .error (.badLimit 0) ∧
      (idle.pass (idle.passed^[0] x)).isSome = true ∧ idle.passed^[0 + 1] x = idle.passed^[0] x ∧
      idle.normalize 1000 x = .error (.exhausted 1000) := by
  intro name a x y z r s t idle
  have hresult : r.normalize 3 s = .ok t := rfl
  have hshort : ∀ s', r.normalize 2 s ≠ .ok s' := by
    intro s' h
    have hnot : r.normalize 2 s = .error (.exhausted 2) := rfl
    rw [hnot] at h
    cases h
  have hchanged : (idle.pass (idle.passed^[0] x)).isSome = true := by decide
  have hback : idle.passed^[0 + 1] x = idle.passed^[0] x := by decide
  obtain ⟨-, -, -, hfound, -⟩ := normalize_first_normal_form r 3 s
  obtain ⟨hnormal, hlarger, hagain⟩ := hfound t hresult
  obtain ⟨-, hexhausted, -⟩ := normalize_first_normal_form r 2 s
  obtain ⟨-, -, hbad, -⟩ := normalize_first_normal_form r 0 s
  obtain ⟨-, -, -, -, hcycle⟩ := normalize_first_normal_form idle 1000 x
  exact ⟨hresult, hnormal, hlarger 1000 (by decide), hagain 1 (by decide), hshort,
    hexhausted (by decide) hshort, hbad (by decide), hchanged, hback,
    hcycle 0 0 (Nat.le_refl 0) hchanged hback (by decide)⟩

end Replacement

end TreeRules
