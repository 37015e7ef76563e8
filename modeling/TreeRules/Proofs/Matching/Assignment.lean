import TreeRules.Matching

/-!
# Assignments: what the markers of a pattern stand for

A pattern lines up with a subject when a value can be put in place of every marker, runs spliced
into the list around them, so that the subject comes out. An `Assignment` lists these values, one
for each marker, in the pre-order of the pattern. `Fits` says that it lines a pattern up with a
subject, and says it without any search:

* a marker inside a list stands for a run of children if it is a run marker; any other marker, and
  every marker that is the whole pattern, stands for one tree;
* each occurrence of a name counts by itself. That equal names have equal values is the further
  demand `Assignment.Consistent`.

All that can be chosen is how long the runs are: an assignment that fits is known by its vector of
`lengths` (`Fits.eq_of_lengths_eq`).
-/

namespace TreeRules

/-- How long a value is, if it is a run. -/
def Value.runLength? : Value → Option Nat
  | .run es => some es.length
  | _ => none

/-- The markers of a pattern in pre-order, each as its name, if it has one, and its value. -/
abbrev Assignment := List (Option Token × Value)

namespace Assignment

/-- The lengths of the runs, in pre-order of their markers. -/
def lengths (a : Assignment) : List Nat := a.filterMap fun o => o.2.runLength?

/-- The names with their values, in pre-order and with repetitions. -/
def entries (a : Assignment) : List (String × Value) :=
  a.filterMap fun o => o.1.map fun x => (x.text, o.2)

/-- All occurrences of a name have the same value. -/
def Consistent (a : Assignment) : Prop :=
  ∀ ⦃x v w⦄, (x, v) ∈ a.entries → (x, w) ∈ a.entries → v = w

@[simp] theorem lengths_nil : lengths [] = [] := rfl

@[simp] theorem lengths_cons_one (x : Option Token) (e : Expr) (a : Assignment) :
    lengths ((x, .one e) :: a) = lengths a := rfl

@[simp] theorem lengths_cons_run (x : Option Token) (es : List Expr) (a : Assignment) :
    lengths ((x, .run es) :: a) = es.length :: lengths a := rfl

@[simp] theorem lengths_append (a a' : Assignment) :
    lengths (a ++ a') = lengths a ++ lengths a' :=
  List.filterMap_append

@[simp] theorem entries_nil : entries [] = [] := rfl

@[simp] theorem entries_cons_none (v : Value) (a : Assignment) :
    entries ((none, v) :: a) = entries a := rfl

@[simp] theorem entries_cons_some (x : Token) (v : Value) (a : Assignment) :
    entries ((some x, v) :: a) = (x.text, v) :: entries a := rfl

@[simp] theorem entries_append (a a' : Assignment) :
    entries (a ++ a') = entries a ++ entries a' :=
  List.filterMap_append

end Assignment

namespace Expr

/-! ## Lining up -/

mutual

/-- The assignment lines the pattern up with the subject. -/
inductive Fits : Expr → Expr → Assignment → Prop where
  /-- a marker that is no child of a list stands for the subject, whatever its span -/
  | marker (x : Option Token) (s : Span) (e : Expr) : Fits (.marker x s) e [(x, .one e)]
  /-- an atom lines up with itself only -/
  | atom (x : Token) : Fits (.atom x) (.atom x) []
  /-- a list lines up child by child -/
  | list {ps es : List Expr} {a : Assignment} (h : FitsAll ps es a) : Fits (.list ps) (.list es) a

/-- The assignment lines the patterns up with the subjects, all of them, in order. -/
inductive FitsAll : List Expr → List Expr → Assignment → Prop where
  /-- no patterns line up with no subjects -/
  | nil : FitsAll [] [] []
  /-- a run marker stands for the first subjects, at least one unless its span says otherwise -/
  | run (x : Option Token) {s : Span} {taken ps es : List Expr} {a : Assignment} (hs : s ≠ .one)
      (hne : s = .oneOrMore → taken ≠ []) (h : FitsAll ps es a) :
      FitsAll (.marker x s :: ps) (taken ++ es) ((x, .run taken) :: a)
  /-- any other pattern lines up with the first subject -/
  | single {p e : Expr} {ps es : List Expr} {a a' : Assignment} (hp : p.isRunMarker = false)
      (h : Fits p e a) (hs : FitsAll ps es a') : FitsAll (p :: ps) (e :: es) (a ++ a')

end

variable {p e : Expr} {ps es : List Expr} {a a' : Assignment}

/-! ### Inversion -/

theorem fits_marker_iff {x : Option Token} {s : Span} :
    Fits (.marker x s) e a ↔ a = [(x, .one e)] := by
  constructor
  · rintro ⟨⟩
    rfl
  · rintro rfl
    exact .marker x s e

theorem fits_atom_iff {x : Token} : Fits (.atom x) e a ↔ e = .atom x ∧ a = [] := by
  constructor
  · rintro ⟨⟩
    exact ⟨rfl, rfl⟩
  · rintro ⟨rfl, rfl⟩
    exact .atom x

theorem fits_list_iff : Fits (.list ps) e a ↔ ∃ es, e = .list es ∧ FitsAll ps es a := by
  constructor
  · rintro ⟨⟩
    rename_i es h
    exact ⟨es, rfl, h⟩
  · rintro ⟨es, rfl, h⟩
    exact .list h

theorem fitsAll_nil_iff : FitsAll [] es a ↔ es = [] ∧ a = [] := by
  constructor
  · rintro ⟨⟩
    exact ⟨rfl, rfl⟩
  · rintro ⟨rfl, rfl⟩
    exact .nil

/-- The run markers are the markers of a span other than one. -/
theorem isRunMarker_iff : p.isRunMarker = true ↔ ∃ x s, p = .marker x s ∧ s ≠ .one := by
  constructor
  · intro hp
    rcases p with _ | _ | ⟨x, s⟩
    · cases hp
    · cases hp
    · refine ⟨x, s, rfl, ?_⟩
      rintro rfl
      cases hp
  · rintro ⟨x, s, rfl, hs⟩
    cases s with
    | one => exact absurd rfl hs
    | oneOrMore => rfl
    | zeroOrMore => rfl

/-- A run marker stands for the first `n` subjects, for some `n` that its span allows. -/
theorem fitsAll_run_iff {x : Option Token} {s : Span} (hs : s ≠ .one) :
    FitsAll (.marker x s :: ps) es a ↔
      ∃ n a', shortest (.marker x s) ≤ n ∧ n ≤ es.length ∧
        a = (x, .run (es.take n)) :: a' ∧ FitsAll ps (es.drop n) a' := by
  constructor
  · intro h
    cases h with
    | @run _ _ taken _ _ rest _ hne h =>
      refine ⟨taken.length, rest, ?_, by simp, by simp, by simpa using h⟩
      cases s with
      | one => exact absurd rfl hs
      | oneOrMore => exact List.length_pos_iff.mpr (hne rfl)
      | zeroOrMore => exact Nat.zero_le _
    | single hp _ _ =>
      rw [isRunMarker_iff.mpr ⟨x, s, rfl, hs⟩] at hp
      cases hp
  · rintro ⟨n, a', hn, hlen, rfl, h⟩
    have hne : s = .oneOrMore → es.take n ≠ [] := by
      -- `n` is positive, and there are that many subjects
      rintro rfl htake
      have hzero : min n es.length = 0 := by rw [← List.length_take, htake, List.length_nil]
      have hpos : 1 ≤ n := hn
      omega
    simpa using FitsAll.run x hs hne h

/-- Any other pattern lines up with the first subject. -/
theorem fitsAll_single_iff (hp : p.isRunMarker = false) :
    FitsAll (p :: ps) es a ↔
      ∃ e es' a₁ a₂, es = e :: es' ∧ a = a₁ ++ a₂ ∧ Fits p e a₁ ∧ FitsAll ps es' a₂ := by
  constructor
  · intro h
    cases h with
    | run x hs _ _ =>
      rw [isRunMarker_iff.mpr ⟨x, _, rfl, hs⟩] at hp
      cases hp
    | single _ h hs => exact ⟨_, _, _, _, rfl, rfl, h, hs⟩
  · rintro ⟨e, es, a₁, a₂, rfl, rfl, h, hs⟩
    exact .single hp h hs

/-- The first pattern lines up with the first subject, the others with the others. -/
theorem fitsAll_cons_iff (hp : p.isRunMarker = false) :
    FitsAll (p :: ps) (e :: es) a ↔ ∃ a₁ a₂, a = a₁ ++ a₂ ∧ Fits p e a₁ ∧ FitsAll ps es a₂ := by
  rw [fitsAll_single_iff hp]
  constructor
  · rintro ⟨e', es', a₁, a₂, hes, rfl, h₁, h₂⟩
    obtain ⟨rfl, rfl⟩ := List.cons.inj hes
    exact ⟨a₁, a₂, rfl, h₁, h₂⟩
  · rintro ⟨a₁, a₂, rfl, h₁, h₂⟩
    exact ⟨e, es, a₁, a₂, rfl, rfl, h₁, h₂⟩

/-! ### Lengths

The vector of run lengths has as many places as the pattern has run markers inside lists, and it
says everything: where it is the same, so is the assignment. -/

mutual

/-- All vectors of run lengths of a pattern are equally long. -/
theorem Fits.length_lengths {p e e' : Expr} {a a' : Assignment} (h : Fits p e a)
    (h' : Fits p e' a') : a.lengths.length = a'.lengths.length := by
  match p with
  | .atom x =>
    obtain ⟨-, rfl⟩ := fits_atom_iff.mp h
    obtain ⟨-, rfl⟩ := fits_atom_iff.mp h'
    rfl
  | .list ps =>
    obtain ⟨es, -, hs⟩ := fits_list_iff.mp h
    obtain ⟨es', -, hs'⟩ := fits_list_iff.mp h'
    exact FitsAll.length_lengths hs hs'
  | .marker x s =>
    rw [fits_marker_iff.mp h, fits_marker_iff.mp h']
    rfl

/-- All vectors of run lengths of several patterns are equally long. -/
theorem FitsAll.length_lengths {ps es es' : List Expr} {a a' : Assignment} (h : FitsAll ps es a)
    (h' : FitsAll ps es' a') : a.lengths.length = a'.lengths.length := by
  match ps with
  | [] =>
    obtain ⟨-, rfl⟩ := fitsAll_nil_iff.mp h
    obtain ⟨-, rfl⟩ := fitsAll_nil_iff.mp h'
    rfl
  | p :: ps =>
    cases hp : p.isRunMarker with
    | true =>
      obtain ⟨x, s, rfl, hs⟩ := isRunMarker_iff.mp hp
      obtain ⟨n, b, -, -, rfl, hb⟩ := (fitsAll_run_iff hs).mp h
      obtain ⟨m, b', -, -, rfl, hb'⟩ := (fitsAll_run_iff hs).mp h'
      simp [FitsAll.length_lengths hb hb']
    | false =>
      obtain ⟨e, es, a₁, a₂, rfl, rfl, h₁, h₂⟩ := (fitsAll_single_iff hp).mp h
      obtain ⟨e', es', a₁', a₂', rfl, rfl, h₁', h₂'⟩ := (fitsAll_single_iff hp).mp h'
      simp [Fits.length_lengths h₁ h₁', FitsAll.length_lengths h₂ h₂']

end

mutual

/-- **Run lengths determine the assignment** that lines a pattern up with a subject. -/
theorem Fits.eq_of_lengths_eq {p e : Expr} {a a' : Assignment} (h : Fits p e a)
    (h' : Fits p e a') (heq : a.lengths = a'.lengths) : a = a' := by
  match p with
  | .atom x => rw [(fits_atom_iff.mp h).2, (fits_atom_iff.mp h').2]
  | .list ps =>
    obtain ⟨es, rfl, hs⟩ := fits_list_iff.mp h
    obtain ⟨es', hes, hs'⟩ := fits_list_iff.mp h'
    obtain rfl := Expr.list.inj hes
    exact FitsAll.eq_of_lengths_eq hs hs' heq
  | .marker x s => rw [fits_marker_iff.mp h, fits_marker_iff.mp h']

/-- Run lengths determine the assignment that lines patterns up with subjects. -/
theorem FitsAll.eq_of_lengths_eq {ps es : List Expr} {a a' : Assignment} (h : FitsAll ps es a)
    (h' : FitsAll ps es a') (heq : a.lengths = a'.lengths) : a = a' := by
  match ps with
  | [] => rw [(fitsAll_nil_iff.mp h).2, (fitsAll_nil_iff.mp h').2]
  | p :: ps =>
    cases hp : p.isRunMarker with
    | true =>
      obtain ⟨x, s, rfl, hs⟩ := isRunMarker_iff.mp hp
      obtain ⟨n, b, -, hn, rfl, hb⟩ := (fitsAll_run_iff hs).mp h
      obtain ⟨m, b', -, hm, rfl, hb'⟩ := (fitsAll_run_iff hs).mp h'
      -- the vectors start with the lengths of the two runs, and neither run is cut short
      simp only [Assignment.lengths_cons_run, List.length_take, List.cons.injEq] at heq
      obtain rfl : n = m := by omega
      rw [FitsAll.eq_of_lengths_eq hb hb' heq.2]
    | false =>
      obtain ⟨e, es, a₁, a₂, rfl, rfl, h₁, h₂⟩ := (fitsAll_single_iff hp).mp h
      obtain ⟨a₁', a₂', rfl, h₁', h₂'⟩ := (fitsAll_cons_iff hp).mp h'
      -- the first pattern has as many runs in both, so the vectors split at the same place
      simp only [Assignment.lengths_append] at heq
      obtain ⟨heq₁, heq₂⟩ := List.append_inj heq (h₁.length_lengths h₁')
      rw [Fits.eq_of_lengths_eq h₁ h₁' heq₁, FitsAll.eq_of_lengths_eq h₂ h₂' heq₂]

end

/-! ### Names -/

mutual

/-- The variables of a pattern in pre-order, with repetitions. -/
def vars : Expr → List Token
  | .atom _ => []
  | .list cs => varsAll cs
  | .marker x _ => x.toList

/-- The variables of several patterns, from the first pattern to the last. -/
def varsAll : List Expr → List Token
  | [] => []
  | e :: es => vars e ++ varsAll es

end

mutual

/-- The entries of an assignment are named after the variables of the pattern. -/
theorem Fits.names_entries {p e : Expr} {a : Assignment} (h : Fits p e a) :
    a.entries.map Prod.fst = p.vars.map Token.text := by
  match p with
  | .atom x =>
    rw [(fits_atom_iff.mp h).2, vars]
    rfl
  | .list ps =>
    obtain ⟨es, -, hs⟩ := fits_list_iff.mp h
    rw [vars]
    exact FitsAll.names_entries hs
  | .marker x s =>
    rw [fits_marker_iff.mp h, vars]
    cases x <;> rfl

/-- The entries of an assignment are named after the variables of the patterns. -/
theorem FitsAll.names_entries {ps es : List Expr} {a : Assignment} (h : FitsAll ps es a) :
    a.entries.map Prod.fst = (varsAll ps).map Token.text := by
  match ps with
  | [] =>
    rw [(fitsAll_nil_iff.mp h).2, varsAll]
    rfl
  | p :: ps =>
    rw [varsAll, List.map_append]
    cases hp : p.isRunMarker with
    | true =>
      obtain ⟨x, s, rfl, hs⟩ := isRunMarker_iff.mp hp
      obtain ⟨n, b, -, -, rfl, hb⟩ := (fitsAll_run_iff hs).mp h
      rw [← FitsAll.names_entries hb, vars]
      cases x <;> rfl
    | false =>
      obtain ⟨e, es, a₁, a₂, rfl, rfl, h₁, h₂⟩ := (fitsAll_single_iff hp).mp h
      rw [Assignment.entries_append, List.map_append, Fits.names_entries h₁,
        FitsAll.names_entries h₂]

end

/-- What has an entry is a variable of the pattern. -/
theorem Fits.mem_variables {x : Token} {v : Value} (h : Fits p e a)
    (hv : (x.text, v) ∈ a.entries) : x ∈ p.vars := by
  have hx : x.text ∈ p.vars.map Token.text := by
    rw [← h.names_entries]
    exact List.mem_map_of_mem hv
  obtain ⟨y, hy, heq⟩ := List.mem_map.mp hx
  exact Token.text_injective heq ▸ hy

/-! ### Demand -/

/-- The demand of patterns grows by the shortest run of a marker, and by one for the others. -/
theorem demand_cons (p : Expr) (ps : List Expr) : demand (p :: ps) = demand ps + p.shortest := by
  simp only [demand, List.countP_cons, shortest]
  cases p.isNullable <;> rfl

/-- A pattern that is no run marker takes one child. -/
theorem shortest_of_not_isRunMarker (hp : p.isRunMarker = false) : p.shortest = 1 := by
  rcases p with _ | _ | ⟨x, _ | _ | _⟩
  · rfl
  · rfl
  · rfl
  · rfl
  · cases hp

/-- Patterns that line up have no more demand than there are subjects. -/
theorem FitsAll.demand_le (h : FitsAll ps es a) : demand ps ≤ es.length := by
  induction ps generalizing es a with
  | nil => exact Nat.zero_le _
  | cons p ps ih =>
    rw [demand_cons]
    cases hp : p.isRunMarker with
    | true =>
      obtain ⟨x, s, rfl, hs⟩ := isRunMarker_iff.mp hp
      obtain ⟨n, b, hn, hlen, -, hb⟩ := (fitsAll_run_iff hs).mp h
      have hrest := ih hb
      rw [List.length_drop] at hrest
      omega
    | false =>
      obtain ⟨e, es, a₁, a₂, rfl, -, -, h₂⟩ := (fitsAll_single_iff hp).mp h
      have hrest := ih h₂
      rw [shortest_of_not_isRunMarker hp, List.length_cons]
      omega

end Expr

end TreeRules
