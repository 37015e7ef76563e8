import TreeRules.Bindings

/-!
# Writing many names at once

A match writes one entry after another into bindings. `Bindings.overwrite` is the whole of it: every
name gets the value of its last entry, and a name keeps the place where it was first written.
`Bindings.Admits` is what strict matching demands of the entries: none of them contradicts another
one or a value that is there already. Both split at `++`, so a search that writes piece by piece
(`overwrite_append`, `admits_append`) can be compared with an assignment taken as a whole.
-/

namespace TreeRules

/-- No name has two values. -/
def SingleValued (vs : List (String × Value)) : Prop :=
  ∀ ⦃x v w⦄, (x, v) ∈ vs → (x, w) ∈ vs → v = w

/-- Entries need only be compared two by two. -/
theorem singleValued_of_pairwise {vs : List (String × Value)}
    (h : vs.Pairwise fun d e => d.1 = e.1 → d.2 = e.2) : SingleValued vs := by
  intro x v w hv hw
  induction vs with
  | nil => cases hv
  | cons d vs ih =>
    rw [List.pairwise_cons] at h
    rcases List.mem_cons.mp hv with rfl | hv' <;> rcases List.mem_cons.mp hw with hw' | hw'
    · exact (congrArg Prod.snd hw').symm
    · exact h.1 _ hw' rfl
    · subst hw'
      exact (h.1 _ hv' rfl).symm
    · exact ih h.2 hv' hw'

/-- Names that occur once have one value. -/
theorem singleValued_of_nodup {vs : List (String × Value)} (h : (vs.map Prod.fst).Nodup) :
    SingleValued vs :=
  singleValued_of_pairwise ((List.pairwise_map.mp h).imp fun hne heq => absurd heq hne)

namespace Bindings

variable {b : Bindings} {x : String} {v w : Value} {vs ws : List (String × Value)}

/-- Write entries one after another. -/
def overwrite (b : Bindings) (vs : List (String × Value)) : Bindings :=
  vs.foldl (fun b e => b.insert e.1 e.2) b

@[simp] theorem overwrite_nil (b : Bindings) : b.overwrite [] = b := rfl

@[simp] theorem overwrite_cons (b : Bindings) (x : String) (v : Value)
    (vs : List (String × Value)) : b.overwrite ((x, v) :: vs) = (b.insert x v).overwrite vs := rfl

@[simp] theorem overwrite_append (b : Bindings) (vs ws : List (String × Value)) :
    b.overwrite (vs ++ ws) = (b.overwrite vs).overwrite ws :=
  List.foldl_append

/-- Bindings made from entries are the empty ones with the entries written. -/
theorem ofEntries_eq_overwrite (vs : List (String × Value)) : ofEntries vs = empty.overwrite vs :=
  rfl

/-! ## Values and entries -/

theorem lookup_eq_some_iff_mem (hd : (vs.map Prod.fst).Nodup) :
    vs.lookup x = some v ↔ (x, v) ∈ vs := by
  induction vs with
  | nil => simp
  | cons e vs ih =>
    obtain ⟨y, w⟩ := e
    rw [List.map_cons, List.nodup_cons] at hd
    by_cases hy : x = y
    · subst hy
      have hnot : (x, v) ∉ vs := fun hv => hd.1 (List.mem_map.mpr ⟨_, hv, rfl⟩)
      simp [hnot, eq_comm]
    · have hne : (x == y) = false := beq_eq_false_iff_ne.mpr hy
      simp [List.lookup_cons, hne, hy, ih hd.2]

/-- The value of a name is that of its entry. -/
theorem find?_eq_some_iff : b.find? x = some v ↔ (x, v) ∈ b.entries :=
  lookup_eq_some_iff_mem b.nodup

/-! ## Values after writing -/

/-- A name keeps a value that no entry contradicts. -/
theorem find?_overwrite_of_forall (hv : (x, v) ∈ vs ∨ b.find? x = some v)
    (h : ∀ w, (x, w) ∈ vs → w = v) : (b.overwrite vs).find? x = some v := by
  induction vs generalizing b with
  | nil =>
    rcases hv with hv | hv
    · cases hv
    · exact hv
  | cons e vs ih =>
    obtain ⟨y, w⟩ := e
    refine ih ?_ fun w hw => h w (List.mem_cons_of_mem _ hw)
    by_cases hy : x = y
    · subst hy
      obtain rfl := h w (List.mem_cons_self ..)
      exact Or.inr (find?_insert_self b x w)
    · rcases hv with hv | hv
      · refine Or.inl ((List.mem_cons.mp hv).resolve_left fun he => ?_)
        exact hy (congrArg Prod.fst he)
      · exact Or.inr ((find?_insert_of_ne b hy w).trans hv)

/-- A name that no entry writes keeps its value. -/
theorem find?_overwrite_of_notMem (h : ∀ w, (x, w) ∉ vs) :
    (b.overwrite vs).find? x = b.find? x := by
  induction vs generalizing b with
  | nil => rfl
  | cons e vs ih =>
    obtain ⟨y, w⟩ := e
    have hy : x ≠ y := by
      rintro rfl
      exact h w (List.mem_cons_self ..)
    rw [overwrite_cons, ih fun w hw => h w (List.mem_cons_of_mem _ hw)]
    exact find?_insert_of_ne b hy w

/-- A name that an entry writes gets the value of one of its entries. -/
theorem exists_find?_overwrite_of_mem (hx : x ∈ vs.map Prod.fst) :
    ∃ v, (x, v) ∈ vs ∧ (b.overwrite vs).find? x = some v := by
  induction vs generalizing b with
  | nil => cases hx
  | cons e vs ih =>
    obtain ⟨y, w⟩ := e
    by_cases hlater : x ∈ vs.map Prod.fst
    · obtain ⟨v, hv, hfind⟩ := @ih (b.insert y w) hlater
      exact ⟨v, List.mem_cons_of_mem _ hv, hfind⟩
    · obtain rfl : x = y := (List.mem_cons.mp hx).resolve_right hlater
      refine ⟨w, List.mem_cons_self, ?_⟩
      rw [overwrite_cons, find?_overwrite_of_notMem fun v hv => hlater (List.mem_map_of_mem hv)]
      exact find?_insert_self b x w

/-- Written into empty bindings, every value comes from an entry. -/
theorem mem_of_find?_overwrite_empty (h : (empty.overwrite vs).find? x = some v) :
    (x, v) ∈ vs := by
  by_cases hx : x ∈ vs.map Prod.fst
  · obtain ⟨w, hw, hfind⟩ := exists_find?_overwrite_of_mem (b := empty) hx
    rw [hfind] at h
    cases h
    exact hw
  · rw [find?_overwrite_of_notMem fun w hw => hx (List.mem_map_of_mem hw)] at h
    cases h

/-! ## Names after writing -/

/-- Writing a name again leaves it in its place. -/
theorem names_putEntry_of_mem (h : x ∈ vs.map Prod.fst) :
    (putEntry x v vs).map Prod.fst = vs.map Prod.fst := by
  induction vs with
  | nil => cases h
  | cons e vs ih =>
    obtain ⟨y, w⟩ := e
    by_cases hy : y = x
    · simp [putEntry, hy]
    · have hlater : x ∈ vs.map Prod.fst := by simpa [Ne.symm hy] using h
      simp [putEntry, hy, ih hlater]

/-- A new name is written behind the others. -/
theorem names_putEntry_of_notMem (h : x ∉ vs.map Prod.fst) :
    (putEntry x v vs).map Prod.fst = vs.map Prod.fst ++ [x] := by
  induction vs with
  | nil => rfl
  | cons e vs ih =>
    obtain ⟨y, w⟩ := e
    rw [List.map_cons, List.mem_cons, not_or] at h
    simp [putEntry, Ne.symm h.1, ih h.2]

/-- Names stand in the order in which they were first written, each once. -/
theorem names_overwrite (b : Bindings) (vs : List (String × Value)) :
    (b.overwrite vs).names = b.names ++ ((vs.map Prod.fst).removeAll b.names).eraseDups := by
  induction vs generalizing b with
  | nil => simp
  | cons e vs ih =>
    obtain ⟨x, v⟩ := e
    rw [overwrite_cons, ih]
    by_cases hx : x ∈ b.names
    · have hnames : (b.insert x v).names = b.names := names_putEntry_of_mem hx
      simp [hnames, List.removeAll, hx]
    · have hnames : (b.insert x v).names = b.names ++ [x] := names_putEntry_of_notMem hx
      have hrest (l : List String) :
          l.removeAll (b.names ++ [x]) = (l.removeAll b.names).filter fun y => !y == x := by
        simp [List.removeAll, List.filter_filter, Bool.and_comm, Bool.beq_eq_decide_eq]
      have hfirst (l : List String) : (x :: l).removeAll b.names = x :: l.removeAll b.names := by
        simp [List.removeAll, hx]
      simp [hnames, hrest, hfirst, List.eraseDups_cons]

theorem names_overwrite_empty (vs : List (String × Value)) :
    (empty.overwrite vs).names = (vs.map Prod.fst).eraseDups := by
  have hnames : empty.names = [] := rfl
  rw [names_overwrite, hnames, List.removeAll_nil, List.nil_append]

/-! ## Strict writing -/

/-- The entries contradict neither each other nor the values that are there. -/
def Admits (b : Bindings) (vs : List (String × Value)) : Prop :=
  SingleValued vs ∧ ∀ ⦃x v w⦄, (x, v) ∈ vs → b.find? x = some w → w = v

@[simp] theorem admits_nil (b : Bindings) : b.Admits [] := by
  constructor
  · intro x v w hv
    cases hv
  · intro x v w hv
    cases hv

/-- Nothing is there that entries could contradict. -/
theorem admits_empty : empty.Admits vs ↔ SingleValued vs :=
  ⟨And.left, fun h => ⟨h, fun _ _ _ _ hw => by cases hw⟩⟩

theorem admits_singleton : b.Admits [(x, v)] ↔ ∀ w, b.find? x = some w → w = v := by
  constructor
  · intro h w hw
    exact h.2 (List.mem_singleton_self _) hw
  · intro h
    refine ⟨fun y u w hu hw => ?_, fun y u w hu hw => ?_⟩
    · rw [List.mem_singleton, Prod.mk.injEq] at hu hw
      rw [hu.2, hw.2]
    · rw [List.mem_singleton, Prod.mk.injEq] at hu
      rw [hu.1] at hw
      rw [hu.2]
      exact h w hw

/-- Entries are admitted one after another. -/
theorem admits_cons : b.Admits ((x, v) :: vs) ↔ b.Admits [(x, v)] ∧ (b.insert x v).Admits vs := by
  rw [admits_singleton]
  constructor
  · rintro ⟨hs, hb⟩
    refine ⟨fun w hw => hb (List.mem_cons_self ..) hw, ?_, ?_⟩
    · exact fun y u w hu hw => hs (List.mem_cons_of_mem _ hu) (List.mem_cons_of_mem _ hw)
    · intro y u w hu hw
      by_cases hy : y = x
      · subst hy
        rw [find?_insert_self] at hw
        obtain rfl := Option.some.inj hw
        exact hs (List.mem_cons_self ..) (List.mem_cons_of_mem _ hu)
      · rw [find?_insert_of_ne b hy] at hw
        exact hb (List.mem_cons_of_mem _ hu) hw
  · rintro ⟨hx, hs, hb⟩
    have hself : ∀ {u}, (x, u) ∈ vs → v = u := fun hu => hb hu (find?_insert_self b x v)
    refine ⟨fun y u w hu hw => ?_, fun y u w hu hw => ?_⟩
    · rcases List.mem_cons.mp hu with hu' | hu <;> rcases List.mem_cons.mp hw with hw' | hw
      · cases hu'
        cases hw'
        rfl
      · cases hu'
        exact hself hw
      · cases hw'
        exact (hself hu).symm
      · exact hs hu hw
    · rcases List.mem_cons.mp hu with hu' | hu'
      · cases hu'
        exact hx w hw
      · by_cases hy : y = x
        · subst hy
          rw [← hself hu']
          exact hx w hw
        · exact hb hu' ((find?_insert_of_ne b hy v).trans hw)

/-- Pieces of entries are admitted one after another. -/
theorem admits_append : b.Admits (vs ++ ws) ↔ b.Admits vs ∧ (b.overwrite vs).Admits ws := by
  induction vs generalizing b with
  | nil => simp
  | cons e vs ih =>
    obtain ⟨y, u⟩ := e
    rw [List.cons_append, admits_cons, ih, @admits_cons b y u vs, and_assoc, overwrite_cons]

/-- Entries that are admitted together are admitted by themselves. -/
theorem admits_right (h : b.Admits (vs ++ ws)) : b.Admits ws :=
  ⟨fun _ _ _ hv hw => h.1 (List.mem_append_right vs hv) (List.mem_append_right vs hw),
    fun _ _ _ hv hw => h.2 (List.mem_append_right vs hv) hw⟩

/-- Extending bindings writes the entry; in strict mode it has to be admitted. -/
theorem extend?_eq_some_iff {strict : Bool} {b' : Bindings} :
    b.extend? strict x v = some b' ↔
      (strict = true → b.Admits [(x, v)]) ∧ b' = b.overwrite [(x, v)] := by
  rw [admits_singleton, overwrite_cons, overwrite_nil, extend?, eq_comm (a := b')]
  cases strict with
  | false => simp
  | true =>
    cases b.find? x with
    | none => simp
    | some w => by_cases hw : w = v <;> simp [hw]

/-! ## Writing what was written before

Instead of entries, the bindings they make may be written: the places and the last values are all
that counts. -/

theorem putEntry_putEntry (x : String) (v w : Value) (vs : List (String × Value)) :
    putEntry x v (putEntry x w vs) = putEntry x v vs := by
  induction vs with
  | nil => simp [putEntry]
  | cons e vs ih =>
    obtain ⟨y, u⟩ := e
    by_cases hy : y = x
    · simp [putEntry, hy]
    · simp [putEntry, hy, ih]

/-- Writing a name again does not depend on what other names got meanwhile. -/
theorem putEntry_comm {y : String} (hx : x ∈ vs.map Prod.fst) (hy : y ≠ x) :
    putEntry x v (putEntry y w vs) = putEntry y w (putEntry x v vs) := by
  induction vs with
  | nil => cases hx
  | cons e vs ih =>
    obtain ⟨z, u⟩ := e
    -- `x` has a place already, so writing it moves nothing that `y` could be put behind
    by_cases hzx : z = x
    · subst hzx
      simp [putEntry, Ne.symm hy]
    · have hx' : x ∈ vs.map Prod.fst := by simpa [Ne.symm hzx] using hx
      by_cases hzy : z = y
      · subst hzy
        simp [putEntry, hzx]
      · simp [putEntry, hzx, hzy, ih hx']

theorem insert_overwrite_comm (hx : x ∈ b.names) (h : x ∉ vs.map Prod.fst) :
    (b.overwrite vs).insert x v = (b.insert x v).overwrite vs := by
  induction vs generalizing b with
  | nil => rfl
  | cons e vs ih =>
    obtain ⟨y, w⟩ := e
    rw [List.map_cons, List.mem_cons, not_or] at h
    have hcomm : (b.insert y w).insert x v = (b.insert x v).insert y w :=
      ext (putEntry_comm hx (Ne.symm h.1))
    rw [overwrite_cons, overwrite_cons, ← hcomm]
    exact ih (mem_names_putEntry.mpr (Or.inr hx)) h.2

theorem overwrite_putEntry (h : (vs.map Prod.fst).Nodup) :
    b.overwrite (putEntry x v vs) = (b.overwrite vs).insert x v := by
  induction vs generalizing b with
  | nil => rfl
  | cons e vs ih =>
    obtain ⟨y, w⟩ := e
    rw [List.map_cons, List.nodup_cons] at h
    by_cases hy : y = x
    · subst hy
      have hput : putEntry y v ((y, w) :: vs) = (y, v) :: vs := by simp [putEntry]
      have hins : (b.insert y w).insert y v = b.insert y v := ext (putEntry_putEntry y v w _)
      rw [hput, overwrite_cons, overwrite_cons, insert_overwrite_comm _ h.1, hins]
      exact mem_names_putEntry.mpr (Or.inl rfl)
    · have hput : putEntry x v ((y, w) :: vs) = (y, w) :: putEntry x v vs := by
        simp [putEntry, hy]
      rw [hput, overwrite_cons, overwrite_cons, ih h.2]

/-- Writing the entries that bindings have after writing `vs` is writing the old ones, then `vs`. -/
theorem overwrite_entries_overwrite (b c : Bindings) (vs : List (String × Value)) :
    b.overwrite (c.overwrite vs).entries = (b.overwrite c.entries).overwrite vs := by
  induction vs generalizing c with
  | nil => rfl
  | cons e vs ih =>
    obtain ⟨y, w⟩ := e
    rw [overwrite_cons, overwrite_cons, ih]
    exact congrArg (fun b : Bindings => b.overwrite vs) (overwrite_putEntry c.nodup)

end Bindings

end TreeRules
