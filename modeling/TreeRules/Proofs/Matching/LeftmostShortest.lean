import TreeRules.Proofs.Matching.Search

/-!
# Matching without `strict` is leftmost-shortest

Without `strict` a match never fails because of a value: whether one can be made depends on the
pattern and the subject alone, and so does the choice of the run lengths. Hence a list inside a list
may keep the lengths it was first matched with: they cannot spoil anything for its later siblings.
By induction on the pattern, the answer is that of the first assignment that lines the pattern up
with the subject (`matchTree_finds`), for whatever bindings the match starts from.
-/

namespace TreeRules

namespace Expr

open Assignment

mutual

/-- A tree is matched by the first assignment that lines the pattern up with it. -/
theorem matchTree_finds (p e : Expr) (b : Bindings) :
    Finds (Fits p e) b (matchTree false p e b) := by
  match p, e with
  | .marker x s, e =>
    have hmatch : matchTree false (.marker x s) e b =
        some (b.overwrite (entries [(x, .one e)])) :=
      matchTree_marker_eq_some_iff.mpr ⟨fun h => absurd h Bool.false_ne_true, rfl⟩
    rw [hmatch]
    exact .of_unique fun a => fits_marker_iff
  | .atom x, e =>
    rw [matchTree_atom]
    split
    · rename_i he
      exact .of_unique (a := []) fun a => by simp [fits_atom_iff, he]
    · rename_i he
      exact .miss fun a ha => he (fits_atom_iff.mp ha).1
  | .list ps, .list es =>
    have hiff : Fits (.list ps) (.list es) = FitsAll ps es := by
      funext a
      simp [fits_list_iff]
    rw [matchTree_list, hiff]
    exact matchChildren_finds ps es b
  | .list ps, .atom y =>
    rw [matchTree_list_of_not_isList rfl]
    exact .miss fun a ha => by simp [fits_list_iff] at ha
  | .list ps, .marker y s =>
    rw [matchTree_list_of_not_isList rfl]
    exact .miss fun a ha => by simp [fits_list_iff] at ha

/-- Children are matched by the first assignment that lines the patterns up with them. -/
theorem matchChildren_finds (ps es : List Expr) (b : Bindings) :
    Finds (FitsAll ps es) b (matchChildren false ps es b) := by
  match ps with
  | [] =>
    cases es with
    | nil => exact .of_unique (a := []) fun a => by simp [fitsAll_nil_iff]
    | cons e es =>
      rw [matchChildren_nil]
      exact .miss fun a ha => by simp [fitsAll_nil_iff] at ha
  | p :: ps =>
    cases hp : p.isRunMarker with
    | true =>
      obtain ⟨x, s, rfl, hs⟩ := isRunMarker_iff.mp hp
      rw [matchChildren_run hp]
      refine finds_run (fun a => fitsAll_run_iff_mem hs) fun n _ => ?_
      have hrun : bindRun false (.marker x s) (es.take n) b =
          some (b.overwrite (entries [(x, .run (es.take n))])) :=
        bindRun_eq_some_iff.mpr ⟨fun h => absurd h Bool.false_ne_true, rfl⟩
      rw [hrun, Option.bind_some]
      exact matchChildren_finds ps (es.drop n) _
    | false =>
      cases es with
      | nil =>
        rw [matchChildren_single_nil hp]
        exact .miss fun a ha => by simp [fitsAll_single_iff hp] at ha
      | cons e es =>
        rw [matchChildren_single hp]
        -- what stands behind the first child lines up or not, whatever the first child took
        exact .bind (fun a => fitsAll_cons_iff hp) (fun _ _ => Fits.length_lengths)
          (fun _ _ _ _ _ h => h) (matchTree_finds p e b) (fun _ _ => matchChildren_finds ps es _)

end

/-- There is only one first assignment. -/
theorem Fits.first_unique {p e : Expr} {a a' : Assignment} (h : First (Fits p e) a)
    (h' : First (Fits p e) a') : a = a' :=
  h.1.eq_of_lengths_eq h'.1 ((h.2 a' h'.1).antisymm (h'.2 a h.1))

/-- A match from any bindings writes the first assignment over them. -/
theorem matchTree_eq_some_iff {p e : Expr} {b b' : Bindings} :
    matchTree false p e b = some b' ↔
      ∃ a, First (Fits p e) a ∧ b' = b.overwrite a.entries := by
  have hfind := matchTree_finds p e b
  constructor
  · intro h
    exact (h ▸ hfind).exists_first
  · rintro ⟨a, ha, rfl⟩
    cases hr : matchTree false p e b with
    | none => exact absurd ⟨a, ha.1⟩ (hfind.eq_none_iff.mp hr)
    | some b' =>
      obtain ⟨a', ha', rfl⟩ := (hr ▸ hfind).exists_first
      rw [Fits.first_unique ha ha']

/-- **Matching is sound, complete and leftmost-shortest.** It fails exactly when no assignment lines
the pattern up with the subject. Otherwise it answers the names and values of the one whose vector
of run lengths, in pre-order of the pattern, comes first in lexicographic order; of a name that
occurs more than once the last value counts. From any other bindings the same patterns match the
same subjects, and the result is written over those bindings. -/
theorem matchAgainst_leftmost_shortest (p e : Expr) :
    (matchAgainst false p e = none ↔ ¬ ∃ a, Fits p e a) ∧
    (∀ r, matchAgainst false p e = some r ↔
      ∃ a, First (Fits p e) a ∧ r = Bindings.ofEntries a.entries) ∧
    ∀ b, matchTree false p e b =
      (matchAgainst false p e).map fun r => b.overwrite r.entries := by
  refine ⟨(matchTree_finds p e .empty).eq_none_iff, fun r => ?_, fun b => ?_⟩
  · simp only [Bindings.ofEntries_eq_overwrite]
    exact matchTree_eq_some_iff
  cases hr : matchAgainst false p e with
  | none =>
    -- whether there is an assignment has nothing to do with the bindings
    rw [Option.map_none, (matchTree_finds p e b).eq_none_iff]
    exact (matchTree_finds p e .empty).eq_none_iff.mp hr
  | some r =>
    obtain ⟨a, ha, rfl⟩ := matchTree_eq_some_iff.mp hr
    rw [Option.map_some, matchTree_eq_some_iff]
    refine ⟨a, ha, ?_⟩
    rw [Bindings.overwrite_entries_overwrite]
    rfl

end Expr

end TreeRules
