import TreeRules.Proofs.Expr.Positions
import TreeRules.Replacement.Basic

/-!
# A pass replaces the outermost matches

A position is *outermost* if the subtree there matches and no subtree around it does. A pass changes
a tree exactly if some position is outermost, and what it makes of the tree is told by positions:

* at an outermost position stands the template, filled in with the bindings of the match there;
* a leaf that no outermost position is around stays, and a list keeps its number of children.

These two say of every position of the tree what becomes of it, so they determine the result
(`Rewritten`, `rewritten_iff`). Below an outermost position nothing is looked into: `at?_passed`
ends there.
-/

namespace TreeRules

namespace Replacement

open TreeRules.Expr

variable {r : Replacement} {e e' u c : Expr} {b : Bindings} {cs : List Expr} {i : Nat}
  {path around : List Nat}

/-! ## The tree after a pass -/

/-- The tree after a pass, be it changed or not. -/
def passed (r : Replacement) (e : Expr) : Expr := (r.pass e).getD e

theorem atRoot_of_matches (h : r.matches? e = some b) : r.atRoot e = some (r.template.fill b) := by
  rw [atRoot, h, Option.map_some]

theorem atRoot_of_not_matches (h : r.matches? e = none) : r.atRoot e = none := by
  rw [atRoot, h, Option.map_none]

theorem pass_of_matches (h : r.matches? e = some b) : r.pass e = some (r.template.fill b) :=
  pass_of_atRoot (atRoot_of_matches h)

theorem passed_of_matches (h : r.matches? e = some b) : r.passed e = r.template.fill b := by
  rw [passed, pass_of_matches h, Option.getD_some]

theorem passed_leaf (h : r.matches? e = none) (he : e.isList = false) : r.passed e = e := by
  rw [passed, pass_leaf (atRoot_of_not_matches h) he, Option.getD_none]

/-- In a list of trees each one has its pass. -/
theorem passAll_getD (r : Replacement) (es : List Expr) :
    (r.passAll es).getD es = es.map r.passed := by
  induction es with
  | nil => rfl
  | cons e es ih => rw [passAll_cons_getD, ih, List.map_cons, passed]

theorem passed_list (h : r.matches? (.list cs) = none) :
    r.passed (.list cs) = .list (cs.map r.passed) := by
  rw [passed, pass_list (atRoot_of_not_matches h), ← passAll_getD]
  cases r.passAll cs <;> rfl

/-- Below a root that does not match, the children of the result are those of the tree, each after
its pass. -/
theorem children_passed (h : r.matches? e = none) :
    (r.passed e).children = e.children.map r.passed := by
  cases he : e.isList with
  | false => rw [passed_leaf h he, children_of_not_isList he, List.map_nil]
  | true =>
    rw [eq_list_of_isList he] at h
    rw [eq_list_of_isList he, passed_list h]
    rfl

theorem passAll_isSome_iff {es : List Expr} :
    (r.passAll es).isSome = true ↔ ∃ e ∈ es, (r.pass e).isSome = true := by
  induction es with
  | nil => simp
  | cons e es ih =>
    simp only [List.mem_cons, exists_eq_or_imp, ← ih]
    rw [passAll]
    cases r.pass e <;> cases r.passAll es <;> simp

/-- A pass changes a tree at its root or in one of its children. -/
theorem pass_isSome_iff :
    (r.pass e).isSome = true ↔
      (r.matches? e).isSome = true ∨ ∃ c ∈ e.children, (r.pass c).isSome = true := by
  cases hm : r.matches? e with
  | some b => simp [pass_of_matches hm]
  | none =>
    have hroot := atRoot_of_not_matches hm
    cases he : e.isList with
    | false => simp [pass_leaf hroot he, children_of_not_isList he]
    | true =>
      rw [eq_list_of_isList he] at hroot ⊢
      rw [pass_list hroot, Option.isSome_map, passAll_isSome_iff]
      simp [children]

/-! ## Outermost positions -/

/-- The subtree at the position matches. -/
def MatchesAt (r : Replacement) (e : Expr) (path : List Nat) : Prop :=
  ∃ u, e.at? path = some u ∧ (r.matches? u).isSome = true

/-- No subtree around the position matches. -/
def Reached (r : Replacement) (e : Expr) (path : List Nat) : Prop :=
  ∀ around, around <+: path → around ≠ path → ¬ r.MatchesAt e around

/-- The subtree at the position matches, and none around it does. -/
def Outermost (r : Replacement) (e : Expr) (path : List Nat) : Prop :=
  r.MatchesAt e path ∧ r.Reached e path

theorem matchesAt_nil_iff : r.MatchesAt e [] ↔ (r.matches? e).isSome = true := by
  simp [MatchesAt]

theorem matchesAt_cons_iff :
    r.MatchesAt e (i :: path) ↔ ∃ c, e.children[i]? = some c ∧ r.MatchesAt c path := by
  constructor
  · rintro ⟨u, hu, hm⟩
    obtain ⟨c, hc, hu⟩ := at?_cons_eq_some_iff.mp hu
    exact ⟨c, hc, u, hu, hm⟩
  · rintro ⟨c, hc, u, hu, hm⟩
    exact ⟨u, at?_cons_eq_some_iff.mpr ⟨c, hc, hu⟩, hm⟩

theorem reached_nil : r.Reached e [] := by
  intro around hpre hne
  exact absurd (List.prefix_nil.mp hpre) hne

/-- The root is around every other position. -/
theorem matches?_of_reached_cons (h : r.Reached e (i :: path)) : r.matches? e = none := by
  have hroot := h [] List.nil_prefix (List.cons_ne_nil i path).symm
  rw [matchesAt_nil_iff, Option.not_isSome_iff_eq_none] at hroot
  exact hroot

/-- A position in a child is reached if the root does not match and the position is reached in the
child. -/
theorem reached_cons_iff (hc : e.children[i]? = some c) :
    r.Reached e (i :: path) ↔ r.matches? e = none ∧ r.Reached c path := by
  constructor
  · intro h
    refine ⟨matches?_of_reached_cons h, fun around hpre hne hm => ?_⟩
    refine h (i :: around) (List.cons_prefix_cons.mpr ⟨rfl, hpre⟩) ?_ ?_
    · intro heq
      exact hne (List.cons.inj heq).2
    · exact matchesAt_cons_iff.mpr ⟨c, hc, hm⟩
  · rintro ⟨hroot, h⟩ around hpre hne hm
    cases around with
    | nil =>
      rw [matchesAt_nil_iff, hroot] at hm
      cases hm
    | cons j around =>
      obtain ⟨rfl, hbelow⟩ := List.cons_prefix_cons.mp hpre
      obtain ⟨c', hc', hm⟩ := matchesAt_cons_iff.mp hm
      obtain rfl : c = c' := Option.some.inj (hc.symm.trans hc')
      refine h around hbelow ?_ hm
      rintro rfl
      exact hne rfl

theorem outermost_nil_iff : r.Outermost e [] ↔ (r.matches? e).isSome = true := by
  rw [Outermost, matchesAt_nil_iff]
  exact and_iff_left reached_nil

theorem outermost_cons_iff (hc : e.children[i]? = some c) :
    r.Outermost e (i :: path) ↔ r.matches? e = none ∧ r.Outermost c path := by
  rw [Outermost, Outermost, reached_cons_iff hc, matchesAt_cons_iff]
  constructor
  · rintro ⟨⟨c', hc', hm⟩, hroot, hreached⟩
    obtain rfl : c = c' := Option.some.inj (hc.symm.trans hc')
    exact ⟨hroot, hm, hreached⟩
  · rintro ⟨hroot, hm, hreached⟩
    exact ⟨⟨c, hc, hm⟩, hroot, hreached⟩

/-- Where the root matches, nothing else is outermost. -/
theorem outermost_iff_of_matches (h : (r.matches? e).isSome = true) :
    r.Outermost e path ↔ path = [] := by
  constructor
  · intro houtermost
    cases path with
    | nil => rfl
    | cons i path =>
      rw [matches?_of_reached_cons houtermost.2] at h
      cases h
  · rintro rfl
    exact outermost_nil_iff.mpr h

/-- Around every match there is an outermost one, which may be the match itself. -/
theorem exists_outermost_prefix (h : r.MatchesAt e path) :
    ∃ around, around <+: path ∧ r.Outermost e around := by
  induction hn : path.length using Nat.strongRecOn generalizing path with
  | ind n ih =>
    by_cases hinner : ∃ around, around <+: path ∧ around ≠ path ∧ r.MatchesAt e around
    · obtain ⟨around, hpre, hne, hm⟩ := hinner
      have hshorter : around.length < n :=
        hn ▸ Nat.lt_of_le_of_ne hpre.length_le fun heq => hne (hpre.eq_of_length heq)
      obtain ⟨outer, houter, h'⟩ := ih _ hshorter hm rfl
      exact ⟨outer, houter.trans hpre, h'⟩
    · have hreached : r.Reached e path := fun around hpre hne hm =>
        hinner ⟨around, hpre, hne, hm⟩
      exact ⟨path, List.prefix_refl path, h, hreached⟩

/-- A pass changes a tree exactly if some position is outermost. -/
theorem pass_isSome_iff_exists_outermost :
    (r.pass e).isSome = true ↔ ∃ path, r.Outermost e path := by
  constructor
  · intro h
    induction e using induction_on_children with
    | step e ih =>
      cases hroot : r.matches? e with
      | some b => exact ⟨[], outermost_nil_iff.mpr (by rw [hroot]; rfl)⟩
      | none =>
        rw [pass_isSome_iff, hroot] at h
        obtain ⟨c, hmem, hpass⟩ := h.resolve_left (by simp)
        obtain ⟨path, hpath⟩ := ih c hmem hpass
        obtain ⟨i, hc⟩ := List.mem_iff_getElem?.mp hmem
        exact ⟨i :: path, (outermost_cons_iff hc).mpr ⟨hroot, hpath⟩⟩
  · rintro ⟨path, h⟩
    induction path generalizing e with
    | nil => exact pass_isSome_iff.mpr (.inl (outermost_nil_iff.mp h))
    | cons i path ih =>
      obtain ⟨c, hc, -⟩ := matchesAt_cons_iff.mp h.1
      have hchild := ((outermost_cons_iff hc).mp h).2
      exact pass_isSome_iff.mpr (.inr ⟨c, List.mem_of_getElem? hc, ih hchild⟩)

/-! ## What a pass makes of a tree -/

/-- **At every position that is reached stands what a pass makes of the subtree there.** -/
theorem at?_passed (h : r.Reached e path) :
    (r.passed e).at? path = (e.at? path).map r.passed := by
  induction path generalizing e with
  | nil => rfl
  | cons i path ih =>
    have hroot := matches?_of_reached_cons h
    rw [at?_cons, at?_cons, children_passed hroot, List.getElem?_map]
    cases hc : e.children[i]? with
    | none => rfl
    | some c => exact ih ((reached_cons_iff hc).mp h).2

/-- No outermost position is around the position, nor is it one itself. -/
def Untouched (r : Replacement) (e : Expr) (path : List Nat) : Prop :=
  ∀ around, around <+: path → ¬ r.Outermost e around

/-- No subtree on the way to an untouched position matches. -/
theorem not_matchesAt_of_untouched (h : r.Untouched e path) (hpre : around <+: path) :
    ¬ r.MatchesAt e around := by
  intro hm
  obtain ⟨outer, houter, houtermost⟩ := exists_outermost_prefix hm
  exact h outer (houter.trans hpre) houtermost

theorem reached_of_untouched (h : r.Untouched e path) : r.Reached e path :=
  fun _ hpre _ => not_matchesAt_of_untouched h hpre

theorem matches?_of_untouched (h : r.Untouched e path) (hu : e.at? path = some u) :
    r.matches? u = none := by
  have hnot := not_matchesAt_of_untouched h (List.prefix_refl path)
  rw [← Option.not_isSome_iff_eq_none]
  exact fun hm => hnot ⟨u, hu, hm⟩

/-- `e'` is `e` with every outermost match replaced by the filled template, and nothing else
altered: leaves stay, and lists keep their number of children, in order. -/
structure Rewritten (r : Replacement) (e e' : Expr) : Prop where
  /-- the template stands where a match was -/
  replaced : ∀ path u b, r.Outermost e path → e.at? path = some u → r.matches? u = some b →
    e'.at? path = some (r.template.fill b)
  /-- other leaves are the same -/
  leaf : ∀ path u, r.Untouched e path → e.at? path = some u → u.isList = false →
    e'.at? path = some u
  /-- other lists are as long -/
  list : ∀ path cs, r.Untouched e path → e.at? path = some (.list cs) →
    ∃ cs', e'.at? path = some (.list cs') ∧ cs'.length = cs.length

/-- A pass replaces what is outermost, and nothing else. -/
theorem rewritten_passed (r : Replacement) (e : Expr) : r.Rewritten e (r.passed e) where
  replaced path u b h hu hm := by
    rw [at?_passed h.2, hu, Option.map_some, passed_of_matches hm]
  leaf path u h hu hleaf := by
    rw [at?_passed (reached_of_untouched h), hu, Option.map_some,
      passed_leaf (matches?_of_untouched h hu) hleaf]
  list path cs h hu := by
    refine ⟨cs.map r.passed, ?_, List.length_map _⟩
    rw [at?_passed (reached_of_untouched h), hu, Option.map_some,
      passed_list (matches?_of_untouched h hu)]

/-- Below a root that does not match, the untouched positions are those of the children. -/
theorem untouched_cons_iff (hc : e.children[i]? = some c) (hroot : r.matches? e = none) :
    r.Untouched e (i :: path) ↔ r.Untouched c path := by
  constructor
  · intro h around hpre houtermost
    exact h (i :: around) (List.cons_prefix_cons.mpr ⟨rfl, hpre⟩)
      ((outermost_cons_iff hc).mpr ⟨hroot, houtermost⟩)
  · intro h around hpre houtermost
    cases around with
    | nil =>
      rw [outermost_nil_iff, hroot] at houtermost
      cases houtermost
    | cons j around =>
      obtain ⟨rfl, hbelow⟩ := List.cons_prefix_cons.mp hpre
      exact h around hbelow ((outermost_cons_iff hc).mp houtermost).2

/-- What holds of a list and its result holds of their children in pairs. -/
theorem Rewritten.child {cs cs' : List Expr} {c c' : Expr}
    (h : r.Rewritten (.list cs) (.list cs')) (hroot : r.matches? (.list cs) = none)
    (hc : cs[i]? = some c) (hc' : cs'[i]? = some c') : r.Rewritten c c' := by
  have hchild : (Expr.list cs).children[i]? = some c := hc
  -- what stands at a position of the child stands behind its number in the list
  have hbefore (path : List Nat) : (Expr.list cs).at? (i :: path) = c.at? path :=
    at?_cons_of_child hc path
  have hafter (path : List Nat) : (Expr.list cs').at? (i :: path) = c'.at? path :=
    at?_cons_of_child hc' path
  refine ⟨fun path u b ho hu hm => ?_, fun path u hun hu hleaf => ?_, fun path ds hun hu => ?_⟩
  · rw [← hafter]
    exact h.replaced _ u b ((outermost_cons_iff hchild).mpr ⟨hroot, ho⟩)
      ((hbefore path).trans hu) hm
  · rw [← hafter]
    exact h.leaf _ u ((untouched_cons_iff hchild hroot).mpr hun) ((hbefore path).trans hu) hleaf
  · obtain ⟨ds', hds, hlength⟩ :=
      h.list _ ds ((untouched_cons_iff hchild hroot).mpr hun) ((hbefore path).trans hu)
    exact ⟨ds', (hafter path).symm.trans hds, hlength⟩

theorem untouched_nil (h : r.matches? e = none) : r.Untouched e [] := by
  intro around hpre houtermost
  obtain rfl := List.prefix_nil.mp hpre
  rw [outermost_nil_iff, h] at houtermost
  cases houtermost

/-- Only one tree is the result. -/
theorem Rewritten.eq_passed (h : r.Rewritten e e') : e' = r.passed e := by
  induction e using induction_on_children generalizing e' with
  | step e ih =>
    cases hroot : r.matches? e with
    | some b =>
      have hsome : (r.matches? e).isSome = true := by rw [hroot]; rfl
      rw [passed_of_matches hroot]
      exact Option.some.inj (h.replaced [] e b (outermost_nil_iff.mpr hsome) rfl hroot)
    | none =>
      cases e with
      | atom x =>
        rw [passed_leaf hroot rfl]
        exact Option.some.inj (h.leaf [] _ (untouched_nil hroot) rfl rfl)
      | marker x s =>
        rw [passed_leaf hroot rfl]
        exact Option.some.inj (h.leaf [] _ (untouched_nil hroot) rfl rfl)
      | list cs =>
        obtain ⟨cs', heq, hlength⟩ := h.list [] cs (untouched_nil hroot) rfl
        obtain rfl : e' = .list cs' := Option.some.inj heq
        rw [passed_list hroot]
        congr 1
        apply List.ext_getElem (hlength.trans (List.length_map _).symm)
        intro i hi' hi
        have hlt : i < cs.length := hlength ▸ hi'
        rw [List.getElem_map]
        exact ih _ (List.getElem_mem hlt)
          (h.child hroot (List.getElem?_eq_getElem hlt) (List.getElem?_eq_getElem hi'))

/-- What is outermost and what comes in its place determine the result of a pass. -/
theorem rewritten_iff : r.Rewritten e e' ↔ e' = r.passed e := by
  constructor
  · exact Rewritten.eq_passed
  · rintro rfl
    exact rewritten_passed r e

/-- Below an untouched position, what is outermost in the tree is outermost in the subtree. -/
theorem outermost_append_iff (h : r.Untouched e path) (hu : e.at? path = some u)
    (rest : List Nat) : r.Outermost e (path ++ rest) ↔ r.Outermost u rest := by
  induction path generalizing e with
  | nil =>
    obtain rfl : e = u := Option.some.inj hu
    rfl
  | cons i path ih =>
    obtain ⟨c, hc, hu⟩ := at?_cons_eq_some_iff.mp hu
    have hroot := matches?_of_reached_cons (reached_of_untouched h)
    rw [List.cons_append, outermost_cons_iff hc, and_iff_right hroot]
    exact ih ((untouched_cons_iff hc hroot).mp h) hu

theorem passed_of_not_outermost (h : ∀ path, ¬ r.Outermost e path) : r.passed e = e := by
  have hnone : r.pass e = none := by
    rw [← Option.not_isSome_iff_eq_none, pass_isSome_iff_exists_outermost]
    rintro ⟨path, hpath⟩
    exact h path hpath
  rw [passed, hnone, Option.getD_none]

/-- What is neither around nor below an outermost position stays as it is. -/
theorem at?_passed_of_apart
    (h : ∀ outer, r.Outermost e outer → ¬ outer <+: path ∧ ¬ path <+: outer) :
    (r.passed e).at? path = e.at? path := by
  have huntouched : r.Untouched e path := fun outer hpre houtermost =>
    (h outer houtermost).1 hpre
  rw [at?_passed (reached_of_untouched huntouched)]
  cases hu : e.at? path with
  | none => rfl
  | some u =>
    have hinside : ∀ rest, ¬ r.Outermost u rest := by
      intro rest hrest
      have houtermost := (outermost_append_iff huntouched hu rest).mpr hrest
      exact (h _ houtermost).2 (List.prefix_append path rest)
    rw [Option.map_some, passed_of_not_outermost hinside]

/-- **A pass replaces the outermost matches, all of them, once.** It changes the tree exactly if
some position is outermost. Its result has the filled template at each of these positions and is
nowhere else altered, which determines it; what lies apart from them is the same, and so is the tree
if there are none. If the root alone is outermost, it is replaced as a single tree is. -/
theorem pass_replaces_outermost (r : Replacement) (s : Expr) :
    ((r.pass s).isSome = true ↔ ∃ path, r.Outermost s path) ∧
      (∀ s', r.Rewritten s s' ↔ s' = (r.pass s).getD s) ∧
      (∀ path, (∀ outer, r.Outermost s outer → ¬ outer <+: path ∧ ¬ path <+: outer) →
        ((r.pass s).getD s).at? path = s.at? path) ∧
      ((∀ path, ¬ r.Outermost s path) → (r.pass s).getD s = s) ∧
      ((∀ path, r.Outermost s path ↔ path = []) →
        ∃ t, r.atRoot s = some t ∧ r.pass s = some t) := by
  refine ⟨pass_isSome_iff_exists_outermost, fun s' => rewritten_iff,
    fun path => at?_passed_of_apart, passed_of_not_outermost, fun h => ?_⟩
  have hroot := outermost_nil_iff.mp ((h []).mpr rfl)
  obtain ⟨b, hb⟩ := Option.isSome_iff_exists.mp hroot
  exact ⟨_, atRoot_of_matches hb, pass_of_matches hb⟩

/-- With `(x a_)` replaced by `(y a)`: in `(x z)` the root alone is outermost, in `(y z)` nothing
is, and in `((y z) (x z))` what stands first lies apart from what is outermost. -/
theorem pass_replaces_outermost_in_pair :
    let name (c : Char) (h : isNameChar c = true) : Expr := .atom (.letter c h)
    let a : Expr := name 'a' rfl
    let x : Expr := name 'x' rfl
    let y : Expr := name 'y' rfl
    let z : Expr := name 'z' rfl
    let r : Replacement := ⟨.list [x, .marker (some (.letter 'a' rfl)) .one], .list [y, a], false⟩
    let pair : Expr := .list [.list [y, z], .list [x, z]]
    (∀ path, r.Outermost (.list [x, z]) path ↔ path = []) ∧
      (∃ t, r.atRoot (.list [x, z]) = some t ∧ r.pass (.list [x, z]) = some t) ∧
      (∀ path, ¬ r.Outermost (.list [y, z]) path) ∧
      (r.pass (.list [y, z])).getD (.list [y, z]) = .list [y, z] ∧
      (∃ path, r.Outermost pair path) ∧
      r.Rewritten pair (.list [.list [y, z], .list [y, z]]) ∧
      (∀ outer, r.Outermost pair outer → ¬ outer <+: [0] ∧ ¬ [0] <+: outer) ∧
      ((r.pass pair).getD pair).at? [0] = pair.at? [0] := by
  intro name a x y z r pair
  have hroot : ∀ path, r.Outermost (.list [x, z]) path ↔ path = [] := fun path =>
    outermost_iff_of_matches (by decide)
  have hnone : ∀ path, ¬ r.Outermost (.list [y, z]) path := fun path hpath =>
    absurd ((pass_replaces_outermost r (.list [y, z])).1.mpr ⟨path, hpath⟩) (by decide)
  obtain ⟨-, -, -, hsame, -⟩ := pass_replaces_outermost r (.list [y, z])
  obtain ⟨-, -, -, -, honce⟩ := pass_replaces_outermost r (.list [x, z])
  obtain ⟨hchanged, hresult, hkept, -⟩ := pass_replaces_outermost r pair
  have hsecond : ∀ outer, r.Outermost pair outer → outer = [1] := by
    intro outer houter
    cases outer with
    | nil => exact absurd (outermost_nil_iff.mp houter) (by decide)
    | cons i rest =>
      obtain ⟨c, hc, -⟩ := matchesAt_cons_iff.mp houter.1
      have hinside := ((outermost_cons_iff hc).mp houter).2
      rcases i with _ | _ | i
      · obtain rfl : Expr.list [y, z] = c := Option.some.inj hc
        exact absurd hinside (hnone rest)
      · obtain rfl : Expr.list [x, z] = c := Option.some.inj hc
        rw [(hroot rest).mp hinside]
      · cases hc
  have hapart : ∀ outer, r.Outermost pair outer → ¬ outer <+: [0] ∧ ¬ [0] <+: outer := by
    intro outer houter
    rw [hsecond outer houter]
    decide
  exact ⟨hroot, honce hroot, hnone, hsame hnone, hchanged.mp (by decide),
    (hresult _).mpr (by decide), hapart, hkept _ hapart⟩

end Replacement

end TreeRules
