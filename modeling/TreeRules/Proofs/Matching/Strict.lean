import TreeRules.Proofs.Matching.Search

/-!
# What strict matching finds, and what it misses

With `strict` all occurrences of a name must have equal values. The search for such a consistent
assignment turns back to other run lengths when it meets a contradiction, but only to those chosen
in the same list: a list inside a list keeps the lengths it was first matched with. So a consistent
assignment may exist and be missed (`strict_match_misses`).

What is found instead is a *settled* assignment. Read the pattern from left to right: every list
inside a list has the leftmost-shortest of the assignments its own children can settle on, given
the values of the names to its left. `strict_match_iff_settled` says that this is exact. In a
*detached* pattern no list inside a list chooses values that matter to its later siblings, and there
nothing is missed.
-/

namespace TreeRules

namespace Expr

open Assignment

/-! ## Settled assignments -/

mutual

/-- The tree settles on the assignment, where names already have the values `b`: a list takes the
first assignment its children can settle on. -/
def Settled (b : Bindings) (p e : Expr) (a : Assignment) : Prop :=
  match p with
  | .list ps => ∃ es, e = .list es ∧ First (SettledAll b ps es) a
  | p => Fits p e a ∧ b.Admits a.entries

/-- The children of a list can settle on the assignment: each in turn takes some of the subjects,
and the ones behind it settle with the values it leaves. -/
def SettledAll (b : Bindings) (ps es : List Expr) (a : Assignment) : Prop :=
  match ps with
  | [] => es = [] ∧ a = []
  | p :: ps => ∃ taken rest a₁ a₂, es = taken ++ rest ∧ a = a₁ ++ a₂ ∧
      (if p.isRunMarker then FitsAll [p] taken a₁ ∧ b.Admits a₁.entries
        else ∃ e, taken = [e] ∧ Settled b p e a₁) ∧
      SettledAll (b.overwrite a₁.entries) ps rest a₂

end

variable {b : Bindings} {p e : Expr} {ps es : List Expr} {a a' : Assignment}

theorem settled_list_iff :
    Settled b (.list ps) e a ↔ ∃ es, e = .list es ∧ First (SettledAll b ps es) a := by
  rw [Settled]

theorem settled_atom_iff {x : Token} :
    Settled b (.atom x) e a ↔ Fits (.atom x) e a ∧ b.Admits a.entries := by
  rw [Settled]
  intro ps h
  cases h

theorem settled_marker_iff {x : Option Token} {s : Span} :
    Settled b (.marker x s) e a ↔ Fits (.marker x s) e a ∧ b.Admits a.entries := by
  rw [Settled]
  intro ps h
  cases h

theorem settledAll_nil_iff : SettledAll b [] es a ↔ es = [] ∧ a = [] := by
  rw [SettledAll]

/-- A run marker by itself takes all of the subjects, as many as its span allows. -/
theorem fitsAll_singleton_run_iff {x : Option Token} {s : Span} (hs : s ≠ .one) :
    FitsAll [.marker x s] es a ↔ shortest (.marker x s) ≤ es.length ∧ a = [(x, .run es)] := by
  rw [fitsAll_run_iff hs]
  constructor
  · rintro ⟨n, a', hn, hlen, rfl, h⟩
    obtain ⟨hdrop, rfl⟩ := fitsAll_nil_iff.mp h
    have hle : es.length ≤ n := by simpa using hdrop
    rw [List.take_of_length_le hle]
    exact ⟨by omega, rfl⟩
  · rintro ⟨hn, rfl⟩
    exact ⟨es.length, [], hn, Nat.le_refl _, by simp, by simpa using FitsAll.nil⟩

theorem settledAll_run_iff {x : Option Token} {s : Span} (hs : s ≠ .one) :
    SettledAll b (.marker x s :: ps) es a ↔
      ∃ n a', shortest (.marker x s) ≤ n ∧ n ≤ es.length ∧ a = (x, .run (es.take n)) :: a' ∧
        b.Admits (entries [(x, .run (es.take n))]) ∧
        SettledAll (b.overwrite (entries [(x, .run (es.take n))])) ps (es.drop n) a' := by
  rw [SettledAll]
  simp only [isRunMarker_iff.mpr ⟨x, s, rfl, hs⟩, if_true, fitsAll_singleton_run_iff hs]
  constructor
  · rintro ⟨taken, rest, a₁, a₂, rfl, rfl, ⟨⟨hn, rfl⟩, hb⟩, h⟩
    exact ⟨taken.length, a₂, hn, by simp, by simp, by simpa using hb, by simpa using h⟩
  · rintro ⟨n, a', hn, hlen, rfl, hb, h⟩
    have htake : (es.take n).length = n := List.length_take_of_le hlen
    exact ⟨es.take n, es.drop n, [(x, .run (es.take n))], a', (List.take_append_drop n es).symm,
      rfl, ⟨⟨by omega, rfl⟩, hb⟩, h⟩

theorem settledAll_single_iff (hp : p.isRunMarker = false) :
    SettledAll b (p :: ps) es a ↔
      ∃ e es' a₁ a₂, es = e :: es' ∧ a = a₁ ++ a₂ ∧ Settled b p e a₁ ∧
        SettledAll (b.overwrite a₁.entries) ps es' a₂ := by
  rw [SettledAll]
  simp only [hp, Bool.false_eq_true, if_false]
  constructor
  · rintro ⟨taken, rest, a₁, a₂, rfl, rfl, ⟨e, rfl, h⟩, hs⟩
    exact ⟨e, rest, a₁, a₂, rfl, rfl, h, hs⟩
  · rintro ⟨e, es', a₁, a₂, rfl, rfl, h, hs⟩
    exact ⟨[e], es', a₁, a₂, rfl, rfl, ⟨e, rfl, h⟩, hs⟩

theorem settledAll_cons_iff (hp : p.isRunMarker = false) :
    SettledAll b (p :: ps) (e :: es) a ↔
      ∃ a₁ a₂, a = a₁ ++ a₂ ∧ Settled b p e a₁ ∧ SettledAll (b.overwrite a₁.entries) ps es a₂ := by
  rw [settledAll_single_iff hp]
  constructor
  · rintro ⟨e', es', a₁, a₂, hes, rfl, h₁, h₂⟩
    obtain ⟨rfl, rfl⟩ := List.cons.inj hes
    exact ⟨a₁, a₂, rfl, h₁, h₂⟩
  · rintro ⟨a₁, a₂, rfl, h₁, h₂⟩
    exact ⟨e, es, a₁, a₂, rfl, rfl, h₁, h₂⟩

mutual

/-- What a tree settles on lines it up with the subject and contradicts nothing. -/
theorem Settled.fits {b : Bindings} {p e : Expr} {a : Assignment} (h : Settled b p e a) :
    Fits p e a ∧ b.Admits a.entries := by
  match p with
  | .atom x => exact settled_atom_iff.mp h
  | .list ps =>
    obtain ⟨es, rfl, hs⟩ := settled_list_iff.mp h
    obtain ⟨hfit, hb⟩ := SettledAll.fits hs.1
    exact ⟨.list hfit, hb⟩
  | .marker x s => exact settled_marker_iff.mp h

/-- What children settle on lines them up with the subjects and contradicts nothing. -/
theorem SettledAll.fits {b : Bindings} {ps es : List Expr} {a : Assignment}
    (h : SettledAll b ps es a) : FitsAll ps es a ∧ b.Admits a.entries := by
  match ps with
  | [] =>
    obtain ⟨rfl, rfl⟩ := settledAll_nil_iff.mp h
    exact ⟨.nil, Bindings.admits_nil b⟩
  | p :: ps =>
    cases hp : p.isRunMarker with
    | true =>
      obtain ⟨x, s, rfl, hs⟩ := isRunMarker_iff.mp hp
      obtain ⟨n, a', hn, hlen, rfl, hb, h'⟩ := (settledAll_run_iff hs).mp h
      obtain ⟨hfit, hb'⟩ := SettledAll.fits h'
      refine ⟨(fitsAll_run_iff hs).mpr ⟨n, a', hn, hlen, rfl, hfit⟩, ?_⟩
      rw [← List.singleton_append, entries_append]
      exact Bindings.admits_append.mpr ⟨hb, hb'⟩
    | false =>
      obtain ⟨e, es', a₁, a₂, rfl, rfl, h₁, h₂⟩ := (settledAll_single_iff hp).mp h
      obtain ⟨hfit₁, hb₁⟩ := Settled.fits h₁
      obtain ⟨hfit₂, hb₂⟩ := SettledAll.fits h₂
      refine ⟨.single hp hfit₁ hfit₂, ?_⟩
      rw [entries_append]
      exact Bindings.admits_append.mpr ⟨hb₁, hb₂⟩

end

/-- A tree settles on one assignment at most. -/
theorem Settled.unique (h : Settled b p e a) (h' : Settled b p e a') : a = a' := by
  cases p with
  | atom x => rw [(fits_atom_iff.mp h.fits.1).2, (fits_atom_iff.mp h'.fits.1).2]
  | list ps =>
    obtain ⟨es, rfl, hs⟩ := settled_list_iff.mp h
    obtain ⟨es', hes, hs'⟩ := settled_list_iff.mp h'
    obtain rfl := Expr.list.inj hes
    have heq := (hs.2 a' hs'.1).antisymm (hs'.2 a hs.1)
    exact h.fits.1.eq_of_lengths_eq h'.fits.1 heq
  | marker x s => rw [fits_marker_iff.mp h.fits.1, fits_marker_iff.mp h'.fits.1]

/-- Every length at which the patterns can settle is tried. -/
theorem settledAll_run_iff_mem {x : Option Token} {s : Span} (hs : s ≠ .one) :
    SettledAll b (.marker x s :: ps) es a ↔
      ∃ n ∈ runLengths (.marker x s) ps es.length, ∃ a', a = (x, .run (es.take n)) :: a' ∧
        b.Admits (entries [(x, .run (es.take n))]) ∧
        SettledAll (b.overwrite (entries [(x, .run (es.take n))])) ps (es.drop n) a' := by
  rw [settledAll_run_iff hs]
  constructor
  · rintro ⟨n, a', hn, hlen, rfl, hb, h⟩
    have hdemand := h.fits.1.demand_le
    rw [List.length_drop] at hdemand
    exact ⟨n, mem_runLengths.mpr ⟨hn, by omega⟩, a', rfl, hb, h⟩
  · rintro ⟨n, hn, a', rfl, hb, h⟩
    rw [mem_runLengths] at hn
    exact ⟨n, a', hn.1, by omega, rfl, hb, h⟩

/-! ## The strict search -/

/-- Looking for what comes first among the first ones is looking for the first. -/
theorem finds_first {P : Assignment → Prop} {r : Option Bindings} (h : Finds P b r) :
    Finds (First P) b r := by
  cases h with
  | hit h => exact .hit ⟨h, fun a' ha' => h.2 a' ha'.1⟩
  | miss h => exact .miss fun a ha => h a ha.1

/-- Strict writing answers the entry if it is admitted, and fails otherwise. -/
theorem finds_admitted {r : Option Bindings}
    (hr : ∀ b', r = some b' ↔ b.Admits a.entries ∧ b' = b.overwrite a.entries) :
    Finds (fun a' => a' = a ∧ b.Admits a'.entries) b r := by
  cases r with
  | none =>
    refine .miss fun a' ha' => ?_
    obtain ⟨rfl, hb⟩ := ha'
    cases (hr _).mpr ⟨hb, rfl⟩
  | some b' =>
    obtain ⟨hb, rfl⟩ := (hr b').mp rfl
    refine .hit ⟨⟨rfl, hb⟩, fun a' ha' => ?_⟩
    rw [ha'.1]
    exact NotAfter.refl _

mutual

/-- Strict matching of a tree finds what the tree settles on. -/
theorem matchTree_strict_finds (p e : Expr) (b : Bindings) :
    Finds (Settled b p e) b (matchTree true p e b) := by
  match p, e with
  | .marker x s, e =>
    have hiff : Settled b (.marker x s) e =
        fun a : Assignment => a = [(x, .one e)] ∧ b.Admits a.entries := by
      funext a
      rw [settled_marker_iff, fits_marker_iff]
    rw [hiff]
    refine finds_admitted fun b' => ?_
    rw [matchTree_marker_eq_some_iff]
    simp
  | .atom x, e =>
    rw [matchTree_atom]
    split
    · rename_i he
      refine .of_unique (a := []) fun a => ?_
      rw [settled_atom_iff, fits_atom_iff]
      constructor
      · rintro ⟨⟨-, rfl⟩, -⟩
        rfl
      · rintro rfl
        exact ⟨⟨he, rfl⟩, Bindings.admits_nil b⟩
    · rename_i he
      exact .miss fun a ha => he (fits_atom_iff.mp ha.fits.1).1
  | .list ps, .list es =>
    have hiff : Settled b (.list ps) (.list es) = First (SettledAll b ps es) := by
      funext a
      simp [settled_list_iff]
    rw [matchTree_list, hiff]
    exact finds_first (matchChildren_strict_finds ps es b)
  | .list ps, .atom y =>
    rw [matchTree_list_of_not_isList rfl]
    exact .miss fun a ha => by simp [settled_list_iff] at ha
  | .list ps, .marker y s =>
    rw [matchTree_list_of_not_isList rfl]
    exact .miss fun a ha => by simp [settled_list_iff] at ha

/-- Strict matching of children finds the first assignment they can settle on. -/
theorem matchChildren_strict_finds (ps es : List Expr) (b : Bindings) :
    Finds (SettledAll b ps es) b (matchChildren true ps es b) := by
  match ps with
  | [] =>
    cases es with
    | nil => exact .of_unique (a := []) fun a => by simp [settledAll_nil_iff]
    | cons e es =>
      rw [matchChildren_nil]
      exact .miss fun a ha => by simp [settledAll_nil_iff] at ha
  | p :: ps =>
    cases hp : p.isRunMarker with
    | true =>
      obtain ⟨x, s, rfl, hs⟩ := isRunMarker_iff.mp hp
      rw [matchChildren_run hp]
      refine finds_run (fun a => settledAll_run_iff_mem hs) fun n _ => ?_
      cases hrun : bindRun true (.marker x s) (es.take n) b with
      | none =>
        refine .miss fun a ha => ?_
        cases hrun ▸ bindRun_eq_some_iff.mpr ⟨fun _ => ha.1, rfl⟩
      | some b' =>
        obtain ⟨hb, rfl⟩ := bindRun_eq_some_iff.mp hrun
        rw [Option.bind_some]
        simp only [hb rfl, true_and]
        exact matchChildren_strict_finds ps (es.drop n) _
    | false =>
      cases es with
      | nil =>
        rw [matchChildren_single_nil hp]
        exact .miss fun a ha => by simp [settledAll_single_iff hp] at ha
      | cons e es =>
        rw [matchChildren_single hp]
        -- the first child has settled, so the ones behind it see no other values than these
        refine .bind (fun a => settledAll_cons_iff hp)
          (fun _ _ h h' => h.fits.1.length_lengths h'.fits.1) (fun a a' a₂ h h' h₂ => ?_)
          (matchTree_strict_finds p e b)
          (fun a _ => matchChildren_strict_finds ps es (b.overwrite a.entries))
        rw [h.1.unique h']
        exact h₂

end

/-! ## Detached patterns -/

mutual

/-- Does a run marker stand in a list of the pattern? -/
def hasRuns : Expr → Bool
  | .list cs => anyRuns cs
  | _ => false

/-- Is one of the children a run marker, or does one stand in a list inside them? -/
def anyRuns : List Expr → Bool
  | [] => false
  | c :: cs => c.isRunMarker || hasRuns c || anyRuns cs

end

mutual

/-- In a detached pattern a list with run markers that stands inside a list shares no variable with
its later siblings. -/
def Detached : Expr → Prop
  | .list cs => DetachedAll cs
  | _ => True

/-- Each of the children is detached, and if run markers stand in it, no variable of it occurs
behind it. -/
def DetachedAll : List Expr → Prop
  | [] => True
  | c :: cs => Detached c ∧ (hasRuns c = true → ∀ x ∈ vars c, x ∉ varsAll cs) ∧
      DetachedAll cs

end

mutual

/-- Without run markers in its lists a pattern lines up in one way only. -/
theorem Fits.lengths_eq_nil {p e : Expr} {a : Assignment} (hp : p.hasRuns = false)
    (h : Fits p e a) : a.lengths = [] := by
  match p with
  | .atom x => rw [(fits_atom_iff.mp h).2, lengths_nil]
  | .list ps =>
    obtain ⟨es, -, hs⟩ := fits_list_iff.mp h
    rw [hasRuns] at hp
    exact FitsAll.lengths_eq_nil hp hs
  | .marker x s => rw [fits_marker_iff.mp h, lengths_cons_one, lengths_nil]

/-- Without run markers patterns line up in one way only. -/
theorem FitsAll.lengths_eq_nil {ps es : List Expr} {a : Assignment} (hps : anyRuns ps = false)
    (h : FitsAll ps es a) : a.lengths = [] := by
  match ps with
  | [] => rw [(fitsAll_nil_iff.mp h).2, lengths_nil]
  | p :: ps =>
    rw [anyRuns, Bool.or_eq_false_iff, Bool.or_eq_false_iff] at hps
    obtain ⟨e, es', a₁, a₂, rfl, rfl, h₁, h₂⟩ := (fitsAll_single_iff hps.1.1).mp h
    rw [lengths_append, Fits.lengths_eq_nil hps.1.2 h₁, FitsAll.lengths_eq_nil hps.2 h₂]
    rfl

end

/-- What stands behind a list is admitted whatever the list took, if they share no variable. -/
theorem admits_of_disjoint {a₁ a₂ : Assignment} (h₁ : Fits p e a₁) (h₂ : FitsAll ps es a₂)
    (hdisj : ∀ x ∈ vars p, x ∉ varsAll ps) (hb : b.Admits a₂.entries) :
    (b.overwrite a₁.entries).Admits a₂.entries := by
  refine ⟨hb.1, fun x v w hv hw => ?_⟩
  have hx : x ∈ (varsAll ps).map Token.text := by
    rw [← h₂.names_entries]
    exact List.mem_map_of_mem hv
  obtain ⟨t, ht, rfl⟩ := List.mem_map.mp hx
  rw [Bindings.find?_overwrite_of_notMem] at hw
  · exact hb.2 hv hw
  · intro u hu
    exact hdisj t (h₁.mem_variables hu) ht

mutual

/-- A detached pattern is matched strictly whenever some admitted assignment lines it up. -/
theorem exists_match_of_detached {p e : Expr} {a : Assignment} {b : Bindings} (hd : p.Detached)
    (h : Fits p e a) (hb : b.Admits a.entries) : ∃ b', matchTree true p e b = some b' := by
  match p with
  | .atom x =>
    obtain ⟨rfl, -⟩ := fits_atom_iff.mp h
    exact ⟨b, by simp⟩
  | .list ps =>
    obtain ⟨es, rfl, hs⟩ := fits_list_iff.mp h
    rw [Detached] at hd
    rw [matchTree_list]
    exact exists_matchAll_of_detached hd hs hb
  | .marker x s =>
    rw [fits_marker_iff.mp h] at hb
    exact ⟨_, matchTree_marker_eq_some_iff.mpr ⟨fun _ => hb, rfl⟩⟩

/-- Detached patterns are matched strictly whenever some admitted assignment lines them up. -/
theorem exists_matchAll_of_detached {ps es : List Expr} {a : Assignment} {b : Bindings}
    (hd : DetachedAll ps) (h : FitsAll ps es a) (hb : b.Admits a.entries) :
    ∃ b', matchChildren true ps es b = some b' := by
  match ps with
  | [] =>
    obtain ⟨rfl, -⟩ := fitsAll_nil_iff.mp h
    exact ⟨b, by simp⟩
  | p :: ps =>
    rw [DetachedAll] at hd
    cases hp : p.isRunMarker with
    | true =>
      obtain ⟨x, s, rfl, hs⟩ := isRunMarker_iff.mp hp
      obtain ⟨n, hn, a', rfl, h'⟩ := (fitsAll_run_iff_mem hs).mp h
      rw [← List.singleton_append, entries_append, Bindings.admits_append] at hb
      obtain ⟨b', hb'⟩ := exists_matchAll_of_detached hd.2.2 h' hb.2
      have hrun : bindRun true (.marker x s) (es.take n) b =
          some (b.overwrite (entries [(x, .run (es.take n))])) :=
        bindRun_eq_some_iff.mpr ⟨fun _ => hb.1, rfl⟩
      rw [matchChildren_run hp, ← Option.isSome_iff_exists, List.findSome?_isSome_iff]
      refine ⟨n, hn, ?_⟩
      rw [hrun, Option.bind_some, hb', Option.isSome_some]
    | false =>
      obtain ⟨e, es', a₁, a₂, rfl, rfl, h₁, h₂⟩ := (fitsAll_single_iff hp).mp h
      rw [entries_append] at hb
      have hb₁ := Bindings.admits_append.mp hb
      obtain ⟨b₁, hmatch⟩ := exists_match_of_detached hd.1 h₁ hb₁.1
      obtain ⟨a₁', h₁', -, rfl⟩ := matchTree_sound hmatch
      -- the match may have taken other values than `a₁`, but none that the rest looks at
      have hb₂ : (b.overwrite a₁'.entries).Admits a₂.entries := by
        cases hruns : p.hasRuns with
        | true => exact admits_of_disjoint h₁' h₂ (hd.2.1 hruns) (Bindings.admits_right hb)
        | false =>
          have heq : a₁.lengths = a₁'.lengths := by
            rw [h₁.lengths_eq_nil hruns, h₁'.lengths_eq_nil hruns]
          rw [← h₁.eq_of_lengths_eq h₁' heq]
          exact hb₁.2
      rw [matchChildren_single hp, hmatch, Option.bind_some]
      exact exists_matchAll_of_detached hd.2.2 h₂ hb₂

end

/-- **What strict matching finds.** It succeeds exactly when one of the consistent assignments is
settled. In a detached pattern it succeeds whenever there is a consistent assignment at all. -/
theorem strict_match_iff_settled (p e : Expr) :
    ((matchAgainst true p e).isSome ↔
      ∃ a, Fits p e a ∧ a.Consistent ∧ Settled .empty p e a) ∧
    (p.Detached → ((matchAgainst true p e).isSome ↔ ∃ a, Fits p e a ∧ a.Consistent)) := by
  have hfind : Finds (Settled .empty p e) .empty (matchAgainst true p e) :=
    matchTree_strict_finds p e .empty
  have hsettled : ∀ a, Settled .empty p e a → Fits p e a ∧ a.Consistent := fun a ha =>
    ⟨ha.fits.1, Bindings.admits_empty.mp ha.fits.2⟩
  constructor
  · rw [hfind.isSome_iff]
    constructor
    · rintro ⟨a, ha⟩
      exact ⟨a, (hsettled a ha).1, (hsettled a ha).2, ha⟩
    · rintro ⟨a, -, -, ha⟩
      exact ⟨a, ha⟩
  · intro hd
    constructor
    · intro h
      obtain ⟨a, ha⟩ := hfind.isSome_iff.mp h
      exact ⟨a, hsettled a ha⟩
    · rintro ⟨a, hfit, hc⟩
      rw [Option.isSome_iff_exists]
      exact exists_match_of_detached hd hfit (Bindings.admits_empty.mpr hc)

/-- The pattern `((x___ y_) z__ z__)`. -/
def splitThenPair : Expr :=
  .list [.list [.marker (some (.letter 'x' rfl)) .zeroOrMore,
    .marker (some (.letter 'y' rfl)) .one],
    .marker (some (.letter 'z' rfl)) .oneOrMore,
    .marker (some (.letter 'z' rfl)) .oneOrMore]

/-- The subject `((a b) c c)`. -/
def pairBehindList : Expr :=
  .list [.list [.atom (.letter 'a' rfl), .atom (.letter 'b' rfl)],
    .atom (.letter 'c' rfl), .atom (.letter 'c' rfl)]

/-- The list inside has run lengths to choose, but shares no variable with what stands behind it, so
a consistent assignment is all that is asked for. -/
theorem strict_match_of_detached_list : splitThenPair.Detached ∧
    ((matchAgainst true splitThenPair pairBehindList).isSome ↔
      ∃ a, Fits splitThenPair pairBehindList a ∧ a.Consistent) := by
  have hd : splitThenPair.Detached := by
    simp only [splitThenPair, Detached, DetachedAll, vars, varsAll]
    decide
  exact ⟨hd, (strict_match_iff_settled splitThenPair pairBehindList).2 hd⟩

/-! ## What is missed -/

/-- The pattern `((x___ y___) x__)`. -/
def splitThenSame : Expr :=
  .list [.list [.marker (some (.letter 'x' rfl)) .zeroOrMore,
    .marker (some (.letter 'y' rfl)) .zeroOrMore],
    .marker (some (.letter 'x' rfl)) .oneOrMore]

/-- The subject `((a) a)`. -/
def sameBehindList : Expr :=
  .list [.list [.atom (.letter 'a' rfl)], .atom (.letter 'a' rfl)]

/-- With `a` for `x` in both places and nothing for `y` the pattern is the subject. -/
def sameInBoth : Assignment :=
  [(some (.letter 'x' rfl), .run [.atom (.letter 'a' rfl)]),
    (some (.letter 'y' rfl), .run []),
    (some (.letter 'x' rfl), .run [.atom (.letter 'a' rfl)])]

/-- **A consistent assignment that is missed.** The list inside the pattern is first matched with
nothing for `x`, and when `x` is met again behind it, that choice is final. -/
theorem strict_match_misses :
    Fits splitThenSame sameBehindList sameInBoth ∧ sameInBoth.Consistent ∧
      matchAgainst true splitThenSame sameBehindList = none := by
  refine ⟨?_, ?_, by decide⟩
  · refine .list ((fitsAll_single_iff rfl).mpr
      ⟨_, _, sameInBoth.take 2, sameInBoth.drop 2, rfl, rfl, .list ?_, ?_⟩)
    · refine (fitsAll_run_iff (by decide)).mpr ⟨1, _, by decide, by decide, rfl, ?_⟩
      exact (fitsAll_run_iff (by decide)).mpr ⟨0, _, by decide, by decide, rfl, .nil⟩
    · exact (fitsAll_run_iff (by decide)).mpr ⟨1, _, by decide, by decide, rfl, .nil⟩
  · intro x v w hv hw
    have hxy : (Token.letter 'x' rfl).text ≠ (Token.letter 'y' rfl).text := by decide
    simp only [sameInBoth, entries_cons_some, entries_nil, List.mem_cons, List.not_mem_nil,
      or_false, Prod.mk.injEq] at hv hw
    rcases hv with ⟨rfl, rfl⟩ | ⟨rfl, rfl⟩ | ⟨rfl, rfl⟩ <;>
      rcases hw with ⟨hname, rfl⟩ | ⟨hname, rfl⟩ | ⟨hname, rfl⟩ <;> simp_all

end Expr

end TreeRules
