import TreeRules.Proofs.Bindings
import TreeRules.Proofs.Matching.Assignment

/-!
# The search for an assignment

Matching looks for assignments in the lexicographic order of their run lengths and answers the first
one. `Finds P b r` says this of an answer `r`: it is the bindings `b` with the first assignment that
has the property `P` written over them, or a failure when no assignment has it. What `P` is differs
between the two modes of matching; how answers are put together does not:

* `Finds.bind` — one tree is matched, then the trees behind it;
* `finds_run` — the lengths of a run are tried, each followed by the trees behind the run.

The pruned lengths lose nothing: `fitsAll_run_iff_mem` finds every length that fits among them.
-/

namespace TreeRules

namespace Assignment

/-! ## Lexicographic order -/

/-- The vector does not come after the other one in lexicographic order: it comes before it, or is
the same. -/
def NotAfter (l l' : List Nat) : Prop := ¬ List.Lex (· < ·) l' l

theorem NotAfter.refl (l : List Nat) : NotAfter l l := List.lex_irrefl Nat.lt_irrefl l

theorem NotAfter.antisymm {l l' : List Nat} (h : NotAfter l l') (h' : NotAfter l' l) : l = l' :=
  List.le_antisymm h h'

theorem notAfter_cons_iff {n m : Nat} {l l' : List Nat} :
    NotAfter (n :: l) (m :: l') ↔ n < m ∨ n = m ∧ NotAfter l l' :=
  List.cons_le_cons_iff

/-- Vectors of one length are compared piece by piece. -/
theorem NotAfter.append {l₁ l₁' l₂ l₂' : List Nat} (hlen : l₁.length = l₁'.length)
    (h₁ : NotAfter l₁ l₁') (h₂ : NotAfter l₂ l₂') : NotAfter (l₁ ++ l₂) (l₁' ++ l₂') := by
  induction l₁ generalizing l₁' with
  | nil =>
    obtain rfl := List.eq_nil_of_length_eq_zero hlen.symm
    exact h₂
  | cons n l₁ ih =>
    cases l₁' with
    | nil => cases hlen
    | cons m l₁' =>
      rw [List.cons_append, List.cons_append, notAfter_cons_iff]
      rcases notAfter_cons_iff.mp h₁ with hlt | ⟨rfl, hle⟩
      · exact Or.inl hlt
      · exact Or.inr ⟨rfl, ih (Nat.succ.inj hlen) hle⟩

/-! ## The first assignment -/

/-- The assignment has the property, and no other one that has it comes before it in the
lexicographic order of run lengths: it is the leftmost-shortest one. -/
def First (P : Assignment → Prop) (a : Assignment) : Prop :=
  P a ∧ ∀ a', P a' → NotAfter a.lengths a'.lengths

/-- The answer of a search over `b`: the first assignment with the property, written over `b`. -/
inductive Finds (P : Assignment → Prop) (b : Bindings) : Option Bindings → Prop where
  /-- there is one, and the first is answered -/
  | hit {a : Assignment} (h : First P a) : Finds P b (some (b.overwrite a.entries))
  /-- there is none -/
  | miss (h : ∀ a, ¬ P a) : Finds P b none

variable {P : Assignment → Prop} {b : Bindings} {r : Option Bindings}

/-- A search fails when there is nothing to find. -/
theorem Finds.eq_none_iff (h : Finds P b r) : r = none ↔ ¬ ∃ a, P a := by
  cases h with
  | hit h => simpa using ⟨_, h.1⟩
  | miss h => simpa using h

/-- A search succeeds when there is something to find. -/
theorem Finds.isSome_iff (h : Finds P b r) : r.isSome ↔ ∃ a, P a := by
  cases h with
  | hit h => simpa using ⟨_, h.1⟩
  | miss h => simpa using h

/-- A search answers a first assignment. -/
theorem Finds.exists_first {b' : Bindings} (h : Finds P b (some b')) :
    ∃ a, First P a ∧ b' = b.overwrite a.entries := by
  cases h with
  | hit h => exact ⟨_, h, rfl⟩

/-- Where there is only one assignment, it is the first. -/
theorem Finds.of_unique {a : Assignment} (hP : ∀ a', P a' ↔ a' = a) :
    Finds P b (some (b.overwrite a.entries)) :=
  .hit ⟨(hP a).mpr rfl, fun a' ha' => by rw [(hP a').mp ha']; exact NotAfter.refl _⟩

/-- A search in two parts. What the first part settles on must not keep the second part from
anything that another choice in the first would have allowed it. -/
theorem Finds.bind {P₁ : Assignment → Prop} {P₂ : Assignment → Assignment → Prop}
    {f : Bindings → Option Bindings} (hP : ∀ a, P a ↔ ∃ a₁ a₂, a = a₁ ++ a₂ ∧ P₁ a₁ ∧ P₂ a₁ a₂)
    (hlen : ∀ a a', P₁ a → P₁ a' → a.lengths.length = a'.lengths.length)
    (hmove : ∀ a a' a₂, First P₁ a → P₁ a' → P₂ a' a₂ → P₂ a a₂) (h₁ : Finds P₁ b r)
    (h₂ : ∀ a, First P₁ a → Finds (P₂ a) (b.overwrite a.entries) (f (b.overwrite a.entries))) :
    Finds P b (r.bind f) := by
  cases h₁ with
  | miss h =>
    refine .miss fun a ha => ?_
    obtain ⟨a₁, a₂, -, ha₁, -⟩ := (hP a).mp ha
    exact h a₁ ha₁
  | @hit a₁ h =>
    -- the first part is settled now, so an answer, or a failure, of the second part is final
    rw [Option.bind_some]
    generalize hs : f (b.overwrite a₁.entries) = s
    have hfind := hs ▸ h₂ a₁ h
    cases hfind with
    | miss hmiss =>
      refine .miss fun a ha => ?_
      obtain ⟨a', a₂, -, ha', ha₂⟩ := (hP a).mp ha
      exact hmiss a₂ (hmove a₁ a' a₂ h ha' ha₂)
    | @hit a₂ hfirst =>
      rw [← Bindings.overwrite_append, ← entries_append]
      refine .hit ⟨(hP _).mpr ⟨a₁, a₂, rfl, h.1, hfirst.1⟩, fun a ha => ?_⟩
      obtain ⟨a', a₂', rfl, ha', ha₂'⟩ := (hP a).mp ha
      rw [lengths_append, lengths_append]
      exact NotAfter.append (hlen a₁ a' h.1 ha') (h.2 a' ha')
        (hfirst.2 a₂' (hmove a₁ a' a₂' h ha' ha₂'))

end Assignment

namespace Expr

open Assignment

variable {p : Expr} {ps es : List Expr} {b b' : Bindings}

/-! ## The lengths of a run -/

/-- A length is tried if the span allows it and the patterns behind have enough left. -/
theorem mem_runLengths {n k : Nat} :
    n ∈ runLengths p ps k ↔ p.shortest ≤ n ∧ n + demand ps ≤ k := by
  rw [runLengths, List.mem_range'_1]
  omega

/-- The answer is that of the shortest length that has one. -/
theorem findSome?_runLengths_eq_some {k : Nat} {f : Nat → Option Bindings}
    (h : (runLengths p ps k).findSome? f = some b) :
    ∃ n ∈ runLengths p ps k, f n = some b ∧ ∀ m ∈ runLengths p ps k, m < n → f m = none := by
  obtain ⟨l₁, n, l₂, hl, hn, hnone⟩ := List.findSome?_eq_some_iff.mp h
  have hsorted : (runLengths p ps k).Pairwise (· < ·) := List.pairwise_lt_range'
  rw [hl] at hsorted ⊢
  refine ⟨n, by simp, hn, fun m hm hlt => ?_⟩
  -- the lengths go up, so a shorter one stands in front of `n`
  rcases List.mem_append.mp hm with hm | hm
  · exact hnone m hm
  · have hle : n ≤ m := by
      rcases List.mem_cons.mp hm with rfl | hm
      · exact Nat.le_refl m
      · have htail := (List.pairwise_append.mp hsorted).2.1
        exact Nat.le_of_lt (List.rel_of_pairwise_cons htail hm)
    omega

/-- **Pruning loses nothing**: every length at which the patterns line up is tried. -/
theorem fitsAll_run_iff_mem {x : Option Token} {s : Span} (hs : s ≠ .one) {a : Assignment} :
    FitsAll (.marker x s :: ps) es a ↔
      ∃ n ∈ runLengths (.marker x s) ps es.length, ∃ a',
        a = (x, .run (es.take n)) :: a' ∧ FitsAll ps (es.drop n) a' := by
  rw [fitsAll_run_iff hs]
  constructor
  · rintro ⟨n, a', hn, hlen, rfl, h⟩
    have hdemand := h.demand_le
    rw [List.length_drop] at hdemand
    exact ⟨n, mem_runLengths.mpr ⟨hn, by omega⟩, a', rfl, h⟩
  · rintro ⟨n, hn, a', rfl, h⟩
    rw [mem_runLengths] at hn
    exact ⟨n, a', hn.1, by omega, rfl, h⟩

/-- A search that tries the lengths of a run, each with what lies behind the run. -/
theorem finds_run {P : Assignment → Prop} {Q : Nat → Assignment → Prop} {x : Option Token}
    {f : Nat → Option Bindings} (hP : ∀ a, P a ↔ ∃ n ∈ runLengths p ps es.length, ∃ a',
      a = (x, .run (es.take n)) :: a' ∧ Q n a')
    (hf : ∀ n ∈ runLengths p ps es.length,
      Finds (Q n) (b.overwrite (entries [(x, .run (es.take n))])) (f n)) :
    Finds P b ((runLengths p ps es.length).findSome? f) := by
  have hlength : ∀ {n}, n ∈ runLengths p ps es.length → (es.take n).length = n := by
    intro n hn
    rw [mem_runLengths] at hn
    rw [List.length_take]
    omega
  cases hr : (runLengths p ps es.length).findSome? f with
  | none =>
    rw [List.findSome?_eq_none_iff] at hr
    refine .miss fun a ha => ?_
    obtain ⟨n, hn, a', -, ha'⟩ := (hP a).mp ha
    exact (hf n hn).eq_none_iff.mp (hr n hn) ⟨a', ha'⟩
  | some b' =>
    obtain ⟨n, hn, hfn, hnone⟩ := findSome?_runLengths_eq_some hr
    obtain ⟨a', hfirst, rfl⟩ := (hfn ▸ hf n hn).exists_first
    rw [← Bindings.overwrite_append, ← entries_append]
    refine .hit ⟨(hP _).mpr ⟨n, hn, a', rfl, hfirst.1⟩, fun a ha => ?_⟩
    obtain ⟨m, hm, a'', rfl, ha''⟩ := (hP a).mp ha
    rw [List.singleton_append, lengths_cons_run, lengths_cons_run, hlength hn, hlength hm,
      notAfter_cons_iff]
    -- a longer run comes later, and a shorter one was tried before and had no answer
    rcases Nat.lt_trichotomy n m with hlt | rfl | hgt
    · exact Or.inl hlt
    · exact Or.inr ⟨rfl, hfirst.2 a'' ha''⟩
    · exact absurd ⟨a'', ha''⟩ ((hf m hm).eq_none_iff.mp (hnone m hm hgt))

/-! ## Soundness in both modes -/

/-- A marker by itself writes the subject under its name. -/
theorem matchTree_marker_eq_some_iff {strict : Bool} {x : Option Token} {s : Span} {e : Expr} :
    matchTree strict (.marker x s) e b = some b' ↔
      (strict = true → b.Admits (entries [(x, .one e)])) ∧
        b' = b.overwrite (entries [(x, .one e)]) := by
  cases x with
  | none => simp [eq_comm]
  | some x =>
    rw [matchTree_variable]
    exact Bindings.extend?_eq_some_iff

/-- A run marker writes the run under its name. -/
theorem bindRun_eq_some_iff {strict : Bool} {x : Option Token} {s : Span} :
    bindRun strict (.marker x s) es b = some b' ↔
      (strict = true → b.Admits (entries [(x, .run es)])) ∧
        b' = b.overwrite (entries [(x, .run es)]) := by
  cases x with
  | none => simp [bindRun, eq_comm]
  | some x => exact Bindings.extend?_eq_some_iff

/-- What was written, and admitted if matching is strict, piece by piece, was so as a whole. -/
theorem admits_overwrite_append {strict : Bool} {b₁ b₂ : Bindings} {vs ws : List (String × Value)}
    (h₁ : (strict = true → b.Admits vs) ∧ b₁ = b.overwrite vs)
    (h₂ : (strict = true → b₁.Admits ws) ∧ b₂ = b₁.overwrite ws) :
    (strict = true → b.Admits (vs ++ ws)) ∧ b₂ = b.overwrite (vs ++ ws) := by
  obtain ⟨h₁, rfl⟩ := h₁
  obtain ⟨h₂, rfl⟩ := h₂
  refine ⟨fun hs => ?_, (b.overwrite_append vs ws).symm⟩
  exact Bindings.admits_append.mpr ⟨h₁ hs, h₂ hs⟩

mutual

/-- **Soundness**: a match comes from an assignment that lines the pattern up with the subject. The
result is the old bindings with its entries written over them; strict matching admits them all. -/
theorem matchTree_sound {strict : Bool} {p e : Expr} {b b' : Bindings}
    (h : matchTree strict p e b = some b') :
    ∃ a, Fits p e a ∧ (strict = true → b.Admits a.entries) ∧ b' = b.overwrite a.entries := by
  match p, e with
  | .marker x s, e => exact ⟨_, .marker x s e, matchTree_marker_eq_some_iff.mp h⟩
  | .atom x, e =>
    rw [matchTree_atom] at h
    split at h
    · rename_i he
      subst he
      obtain rfl := Option.some.inj h
      exact ⟨[], .atom x, fun _ => Bindings.admits_nil b, rfl⟩
    · cases h
  | .list ps, .list es =>
    rw [matchTree_list] at h
    obtain ⟨a, ha, hb⟩ := matchChildren_sound h
    exact ⟨a, .list ha, hb⟩
  | .list ps, .atom y =>
    rw [matchTree_list_of_not_isList rfl] at h
    cases h
  | .list ps, .marker y s =>
    rw [matchTree_list_of_not_isList rfl] at h
    cases h

/-- A match of children comes from an assignment that lines them up. -/
theorem matchChildren_sound {strict : Bool} {ps es : List Expr} {b b' : Bindings}
    (h : matchChildren strict ps es b = some b') :
    ∃ a, FitsAll ps es a ∧ (strict = true → b.Admits a.entries) ∧ b' = b.overwrite a.entries := by
  match ps with
  | [] =>
    cases es with
    | nil =>
      obtain rfl := Option.some.inj (matchChildren_nil strict [] b ▸ h)
      exact ⟨[], .nil, fun _ => Bindings.admits_nil b, rfl⟩
    | cons e es => simp at h
  | p :: ps =>
    cases hp : p.isRunMarker with
    | true =>
      obtain ⟨x, s, rfl, hs⟩ := isRunMarker_iff.mp hp
      rw [matchChildren_run hp] at h
      obtain ⟨n, hn, hrun⟩ := List.exists_of_findSome?_eq_some h
      obtain ⟨b₁, hb₁, hb'⟩ := Option.bind_eq_some_iff.mp hrun
      obtain ⟨a, ha, hwrite⟩ := matchChildren_sound hb'
      refine ⟨(x, .run (es.take n)) :: a, (fitsAll_run_iff_mem hs).mpr ⟨n, hn, a, rfl, ha⟩, ?_⟩
      rw [← List.singleton_append, entries_append]
      exact admits_overwrite_append (bindRun_eq_some_iff.mp hb₁) hwrite
    | false =>
      cases es with
      | nil =>
        rw [matchChildren_single_nil hp] at h
        cases h
      | cons e es =>
        rw [matchChildren_single hp] at h
        obtain ⟨b₁, hb₁, hb'⟩ := Option.bind_eq_some_iff.mp h
        obtain ⟨a₁, ha₁, hwrite₁⟩ := matchTree_sound hb₁
        obtain ⟨a₂, ha₂, hwrite₂⟩ := matchChildren_sound hb'
        refine ⟨a₁ ++ a₂, .single hp ha₁ ha₂, ?_⟩
        rw [entries_append]
        exact admits_overwrite_append hwrite₁ hwrite₂

end

end Expr

end TreeRules
