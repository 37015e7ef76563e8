import TreeRules.Proofs.Matching.LeftmostShortest
import TreeRules.Proofs.Matching.Strict

/-!
# Strict matching refines matching

Without `strict` the answer is the first of all assignments that line the pattern up with the
subject. With `strict` it is an assignment that the pattern settles on. When the first of all is
consistent, the pattern settles on it: the part of it that a list inside the pattern takes is first
among the assignments of that list (`first_split`), and what is left behind the list is first among
those behind it. So each choice that the strict search makes is the one made without `strict`, and
no value on the way is refused (`settled_of_first`). Then both searches have the same answer.

When the first assignment is not consistent, strict matching may find a later one or none at all,
but it finds nothing where there is nothing to find.
-/

namespace TreeRules

namespace Assignment

/-! ## Parts of the first assignment -/

/-- Behind the same beginning, vectors compare as they do without it. -/
theorem notAfter_append_left_iff {l l₁ l₂ : List Nat} :
    NotAfter (l ++ l₁) (l ++ l₂) ↔ NotAfter l₁ l₂ := by
  induction l with
  | nil => rfl
  | cons n l ih => simp [notAfter_cons_iff, ih]

/-- Beginnings of one length compare as they do with the same end behind them. -/
theorem notAfter_append_right_iff {l₁ l₁' l : List Nat} (hlen : l₁.length = l₁'.length) :
    NotAfter (l₁ ++ l) (l₁' ++ l) ↔ NotAfter l₁ l₁' := by
  induction l₁ generalizing l₁' with
  | nil =>
    obtain rfl := List.eq_nil_of_length_eq_zero hlen.symm
    exact ⟨fun _ => NotAfter.refl [], fun _ => NotAfter.refl l⟩
  | cons n l₁ ih =>
    cases l₁' with
    | nil => cases hlen
    | cons m l₁' =>
      rw [List.cons_append, List.cons_append, notAfter_cons_iff, notAfter_cons_iff,
        ih (Nat.succ.inj hlen)]

end Assignment

namespace Expr

open Assignment

variable {p e : Expr} {ps es : List Expr} {a a₁ a₂ : Assignment} {b : Bindings}

/-- What is first for children is first for the first child, and for the children behind it. -/
theorem first_split (hp : p.isRunMarker = false) (h₁ : Fits p e a₁) (h₂ : FitsAll ps es a₂)
    (h : First (FitsAll (p :: ps) (e :: es)) (a₁ ++ a₂)) :
    First (Fits p e) a₁ ∧ First (FitsAll ps es) a₂ := by
  constructor
  · refine ⟨h₁, fun a' h' => ?_⟩
    have hle := h.2 (a' ++ a₂) (.single hp h' h₂)
    rwa [lengths_append, lengths_append,
      notAfter_append_right_iff (h₁.length_lengths h')] at hle
  · refine ⟨h₂, fun a' h' => ?_⟩
    have hle := h.2 (a₁ ++ a') (.single hp h₁ h')
    rwa [lengths_append, lengths_append, notAfter_append_left_iff] at hle

/-- What is first for children that start with a run is first for the children behind that run. -/
theorem first_behind_run {x : Option Token} {s : Span} {n : Nat} (hs : s ≠ .one)
    (hn : shortest (.marker x s) ≤ n) (hlen : n ≤ es.length) (h₁ : FitsAll ps (es.drop n) a)
    (h : First (FitsAll (.marker x s :: ps) es) ((x, .run (es.take n)) :: a)) :
    First (FitsAll ps (es.drop n)) a := by
  refine ⟨h₁, fun a' h' => ?_⟩
  have hle := h.2 _ ((fitsAll_run_iff hs).mpr ⟨n, a', hn, hlen, rfl, h'⟩)
  rw [lengths_cons_run, lengths_cons_run, notAfter_cons_iff] at hle
  exact (hle.resolve_left (Nat.lt_irrefl _)).2

mutual

/-- **A pattern settles on the first assignment**, if that contradicts nothing. -/
theorem settled_of_first {p e : Expr} {a : Assignment} {b : Bindings} (h : First (Fits p e) a)
    (hb : b.Admits a.entries) : Settled b p e a := by
  match p with
  | .atom x => exact settled_atom_iff.mpr ⟨h.1, hb⟩
  | .list ps =>
    obtain ⟨es, rfl, hs⟩ := fits_list_iff.mp h.1
    have hfirst : First (FitsAll ps es) a := ⟨hs, fun a' h' => h.2 a' (.list h')⟩
    -- all that the children can settle on lines them up, and so none of it comes before `a`
    exact settled_list_iff.mpr ⟨es, rfl, settledAll_of_first hfirst hb,
      fun a' h' => hfirst.2 a' h'.fits.1⟩
  | .marker x s => exact settled_marker_iff.mpr ⟨h.1, hb⟩

/-- Patterns settle on the first assignment, if that contradicts nothing. -/
theorem settledAll_of_first {ps es : List Expr} {a : Assignment} {b : Bindings}
    (h : First (FitsAll ps es) a) (hb : b.Admits a.entries) : SettledAll b ps es a := by
  match ps with
  | [] => exact settledAll_nil_iff.mpr (fitsAll_nil_iff.mp h.1)
  | p :: ps =>
    cases hp : p.isRunMarker with
    | true =>
      obtain ⟨x, s, rfl, hs⟩ := isRunMarker_iff.mp hp
      obtain ⟨n, a', hn, hlen, rfl, h'⟩ := (fitsAll_run_iff hs).mp h.1
      rw [← List.singleton_append, entries_append, Bindings.admits_append] at hb
      exact (settledAll_run_iff hs).mpr ⟨n, a', hn, hlen, rfl, hb.1,
        settledAll_of_first (first_behind_run hs hn hlen h' h) hb.2⟩
    | false =>
      obtain ⟨e, es, a₁, a₂, rfl, rfl, h₁, h₂⟩ := (fitsAll_single_iff hp).mp h.1
      obtain ⟨hfirst₁, hfirst₂⟩ := first_split hp h₁ h₂ h
      rw [entries_append, Bindings.admits_append] at hb
      exact (settledAll_cons_iff hp).mpr
        ⟨a₁, a₂, rfl, settled_of_first hfirst₁ hb.1, settledAll_of_first hfirst₂ hb.2⟩

end

/-! ## The two searches -/

/-- Of names that occur once, every assignment is consistent. -/
theorem Fits.consistent_of_nodup (hd : p.vars.Nodup) (h : Fits p e a) : a.Consistent := by
  refine singleValued_of_nodup ?_
  rw [h.names_entries]
  have hdistinct : p.vars.Pairwise (· ≠ ·) := hd
  exact List.Pairwise.map _ (fun x y hne heq => hne (Token.text_injective heq)) hdistinct

/-- A consistent first assignment is what matching answers, strict or not. -/
theorem matchAgainst_of_first {strict : Bool} (h : First (Fits p e) a) (hc : a.Consistent) :
    matchAgainst strict p e = some (.ofEntries a.entries) := by
  rw [Bindings.ofEntries_eq_overwrite]
  cases strict with
  | false => exact matchTree_eq_some_iff.mpr ⟨a, h, rfl⟩
  | true =>
    have hsettled : Settled .empty p e a := settled_of_first h (Bindings.admits_empty.mpr hc)
    have hfind : Finds (Settled .empty p e) .empty (matchAgainst true p e) :=
      matchTree_strict_finds p e .empty
    obtain ⟨b, hb⟩ := Option.isSome_iff_exists.mp (hfind.isSome_iff.mpr ⟨a, hsettled⟩)
    obtain ⟨a', ha', rfl⟩ := (hb ▸ hfind).exists_first
    rw [hb, ← hsettled.unique ha'.1]

/-- **Strict matching refines matching.** What matches strictly matches. If the assignment that
matching finds gives every name one value, strict matching finds the same one, and answers the same
bindings. So it always does for a pattern in which no name occurs twice. -/
theorem strict_refines (p e : Expr) :
    ((matchAgainst true p e).isSome → (matchAgainst false p e).isSome) ∧
    (∀ a, First (Fits p e) a → a.Consistent →
      matchAgainst false p e = some (.ofEntries a.entries) ∧
        matchAgainst true p e = some (.ofEntries a.entries)) ∧
    (p.vars.Nodup → (∀ a, Fits p e a → a.Consistent) ∧
      matchAgainst true p e = matchAgainst false p e) := by
  have hsome : (matchAgainst true p e).isSome → (matchAgainst false p e).isSome := by
    intro h
    obtain ⟨b, hb⟩ := Option.isSome_iff_exists.mp h
    obtain ⟨a, ha, -⟩ := matchTree_sound hb
    exact (matchTree_finds p e .empty).isSome_iff.mpr ⟨a, ha⟩
  refine ⟨hsome, fun a ha hc => ⟨matchAgainst_of_first ha hc, matchAgainst_of_first ha hc⟩,
    fun hd => ⟨fun a ha => ha.consistent_of_nodup hd, ?_⟩⟩
  cases hr : matchAgainst false p e with
  | none =>
    rw [hr] at hsome
    exact Option.not_isSome_iff_eq_none.mp fun h => Bool.false_ne_true (hsome h)
  | some r =>
    obtain ⟨a, ha, rfl⟩ := matchTree_eq_some_iff.mp hr
    exact matchAgainst_of_first ha (ha.1.consistent_of_nodup hd)

/-- In `((x___ y___) x___ a)` a name occurs twice, and there are two ways to share out what the
first list of `((c) a)` has: the first of them is consistent. In `(x___ y___)` no name occurs twice,
so there consistency is no question. -/
theorem strict_refines_in_list :
    let a : Expr := .atom (.letter 'a' rfl)
    let c : Expr := .atom (.letter 'c' rfl)
    let x : Option Token := some (.letter 'x' rfl)
    let y : Option Token := some (.letter 'y' rfl)
    let inside : Expr := .list [.marker x .zeroOrMore, .marker y .zeroOrMore]
    let p : Expr := .list [inside, .marker x .zeroOrMore, a]
    let e : Expr := .list [.list [c], a]
    let first : Assignment := [(x, .run []), (y, .run [c]), (x, .run [])]
    (First (Fits p e) first ∧ first.Consistent ∧
      matchAgainst true p e = some (.ofEntries first.entries)) ∧
    ((matchAgainst true p e).isSome ∧ (matchAgainst false p e).isSome) ∧
    inside.vars.Nodup ∧ matchAgainst true inside e = matchAgainst false inside e := by
  intro a c x y inside p e first
  have hfits : Fits p e first := by
    refine .list ((fitsAll_single_iff rfl).mpr
      ⟨_, _, first.take 2, first.drop 2, rfl, rfl, .list ?_, ?_⟩)
    · refine (fitsAll_run_iff (by decide)).mpr ⟨0, _, by decide, by decide, rfl, ?_⟩
      exact (fitsAll_run_iff (by decide)).mpr ⟨1, _, by decide, by decide, rfl, .nil⟩
    · refine (fitsAll_run_iff (by decide)).mpr ⟨0, _, by decide, by decide, rfl, ?_⟩
      exact .single rfl (.atom _) .nil
  have hfirst : First (Fits p e) first := by
    refine ⟨hfits, fun a' h => ?_⟩
    obtain ⟨es, hes, h⟩ := fits_list_iff.mp h
    obtain rfl := Expr.list.inj hes
    obtain ⟨a₁, a₂, rfl, h₁, h₂⟩ := (fitsAll_cons_iff rfl).mp h
    obtain ⟨cs, hcs, h₁⟩ := fits_list_iff.mp h₁
    obtain rfl := Expr.list.inj hcs
    obtain ⟨n, a₃, -, hn, rfl, h₃⟩ := (fitsAll_run_iff (by decide)).mp h₁
    obtain ⟨-, rfl⟩ := (fitsAll_singleton_run_iff (by decide)).mp h₃
    obtain ⟨k, a₄, -, hk, rfl, -⟩ := (fitsAll_run_iff (by decide)).mp h₂
    have hend : NotAfter [] (lengths a₄) := List.not_lex_nil
    -- a longer run for the first `x` comes later, and without one `y` has to take all there is
    have hlengths : first.lengths = [0, 1, 0] := rfl
    simp only [hlengths, lengths_cons_run, List.cons_append, List.nil_append, List.length_take,
      List.length_drop, List.length_cons, List.length_nil, notAfter_cons_iff, hend,
      and_true] at hn ⊢
    omega
  have hc : first.Consistent := singleValued_of_pairwise (by decide +kernel)
  exact ⟨⟨hfirst, hc, ((strict_refines p e).2.1 first hfirst hc).2⟩,
    ⟨by decide, (strict_refines p e).1 (by decide)⟩,
    by decide, ((strict_refines inside e).2.2 (by decide)).2⟩

end Expr

end TreeRules
