import TreeRules.Proofs.Expr.Leaves
import TreeRules.Proofs.Matching.Pieces
import TreeRules.Proofs.Replacement.NormalForm
import TreeRules.Proofs.Template.Values

/-!
# Replacing invents no leaves

What replaces a match is made of the leaves of the template and of values, and a value is a piece of
the subject (`pieceOf_of_match`). So a result has no leaves but those of the subject and those that
the replacement introduces (`Replacement.Introduces`): the leaves of the template, and the atom
`Sequence` where the template is one name that a run may be bound to. The markers of the pattern are
not among them. This holds for one match, hence for a pass, hence for any number of passes, since
what a later pass finds has been there or has been introduced before.
-/

namespace TreeRules

open TreeRules.Expr

/-! ## Leaves of filled templates -/

/-- The leaves of a piece of a tree are leaves of the tree. -/
theorem Value.PieceOf.mem_leaves {v : Value} {s l : Expr} (h : v.PieceOf s)
    (hl : l ∈ leavesAll v.trees) : l ∈ s.leaves := by
  obtain ⟨u, hu, hmem⟩ := mem_leavesAll_iff.mp hl
  cases v with
  | one e =>
    obtain ⟨path, hpath⟩ := h
    obtain rfl := List.mem_singleton.mp hu
    exact mem_leaves_of_at? hpath hmem
  | run es =>
    obtain ⟨path, cs, hpath, hes⟩ := h
    exact mem_leaves_of_at? hpath (mem_leaves_list_iff.mpr ⟨u, hes.subset hu, hmem⟩)
  | vacant => exact absurd h id

/-- The leaf is one of a bound value. -/
def Bindings.Supplies (b : Bindings) (l : Expr) : Prop :=
  ∃ x v, b.find? x = some v ∧ l ∈ leavesAll v.trees

namespace Expr

variable {b : Bindings} {l : Expr}

mutual

/-- A template that is no bare atom is filled in with leaves of values. -/
theorem mem_leaves_fill {t : Expr} (ht : t.isAtom = false) (hl : l ∈ (t.fill b).leaves) :
    l ∈ t.leaves ∨ b.Supplies l := by
  match t with
  | .atom x => cases ht
  | .list cs =>
    rw [fill_list, leaves] at hl
    exact mem_leavesAll_fillAll hl
  | .marker x s =>
    rw [fill_marker] at hl
    exact Or.inl hl

/-- The children of a list are filled in with leaves of values. -/
theorem mem_leavesAll_fillAll {ts : List Expr} (hl : l ∈ leavesAll (fillAll ts b)) :
    l ∈ leavesAll ts ∨ b.Supplies l := by
  match ts with
  | [] =>
    rw [fillAll_nil] at hl
    exact Or.inl hl
  | t :: ts =>
    rw [← List.singleton_append, fillAll_append, leavesAll_append, List.mem_append] at hl
    rw [leavesAll, List.mem_append]
    rcases hl with hl | hl
    · have hfirst : l ∈ t.leaves ∨ b.Supplies l := by
        cases ht : t.isAtom with
        | false =>
          rw [fillAll_of_not_isAtom ht, leavesAll, leavesAll, List.append_nil] at hl
          exact mem_leaves_fill ht hl
        | true =>
          obtain ⟨x, rfl⟩ := exists_atom_of_isAtom ht
          rw [fillAll_atom] at hl
          cases hx : b.value? x.text with
          | none =>
            rw [hx, Option.elim_none, leavesAll, leavesAll, List.append_nil] at hl
            exact Or.inl hl
          | some v =>
            rw [hx, Option.elim_some] at hl
            exact Or.inr ⟨x.text, v, (Bindings.value?_eq_some_iff.mp hx).1, hl⟩
      exact hfirst.imp_left Or.inl
    · exact (mem_leavesAll_fillAll hl).imp_left Or.inr

end

/-- A bare atom is filled in with leaves of its value, and with a head if that is a run. -/
theorem mem_leaves_fill_atom {x : Token} (hl : l ∈ ((atom x).fill b).leaves) :
    l = .atom x ∨ b.Supplies l ∨
      l = .atom Token.sequence ∧ ∃ es, b.find? x.text = some (.run es) := by
  cases hx : b.value? x.text with
  | none =>
    rw [fill_atom_of_value?_eq_none hx, leaves, List.mem_singleton] at hl
    exact Or.inl hl
  | some v =>
    obtain ⟨hfind, hne⟩ := Bindings.value?_eq_some_iff.mp hx
    cases v with
    | one e =>
      rw [fill_atom_of_one hfind] at hl
      exact Or.inr (Or.inl ⟨x.text, .one e, hfind, by simpa [Value.trees, leavesAll] using hl⟩)
    | run es =>
      rw [fill_atom_of_run hfind, leaves, leavesAll, leaves, List.singleton_append] at hl
      rcases List.mem_cons.mp hl with hl | hl
      · exact Or.inr (Or.inr ⟨hl, es, hfind⟩)
      · exact Or.inr (Or.inl ⟨x.text, .run es, hfind, hl⟩)
    | vacant => exact absurd rfl hne

mutual

/-- A variable is a leaf of the pattern at each place where it occurs. -/
theorem mem_leaves_of_mem_occurrencesFrom {p : Expr} {inside : Bool} {o : Occurrence}
    (ho : o ∈ p.occurrencesFrom inside) : .marker (some o.name) o.span ∈ p.leaves := by
  match p with
  | .atom x =>
    rw [occurrencesFrom] at ho
    cases ho
  | .list cs =>
    rw [occurrencesFrom] at ho
    rw [leaves]
    exact mem_leavesAll_of_mem_occurrencesAll ho
  | .marker none s =>
    rw [occurrencesFrom] at ho
    cases ho
  | .marker (some x) s =>
    rw [occurrencesFrom] at ho
    obtain rfl := List.mem_singleton.mp ho
    rw [leaves]
    exact List.mem_singleton_self _

theorem mem_leavesAll_of_mem_occurrencesAll {ps : List Expr} {o : Occurrence}
    (ho : o ∈ occurrencesAll ps) : .marker (some o.name) o.span ∈ leavesAll ps := by
  match ps with
  | [] =>
    rw [occurrencesAll] at ho
    cases ho
  | p :: ps =>
    rw [occurrencesAll, List.mem_append] at ho
    rw [leavesAll, List.mem_append]
    exact ho.imp mem_leaves_of_mem_occurrencesFrom mem_leavesAll_of_mem_occurrencesAll

end

end Expr

/-! ## Leaves of results -/

namespace Replacement

variable {r : Replacement} {s s' l : Expr}

/-- The leaf is one of the template, or the head of the list that stands for a run. That head comes
in only if the template is one name, and a run marker of the pattern has it. -/
def Introduces (r : Replacement) (l : Expr) : Prop :=
  l ∈ r.template.leaves ∨
    l = .atom Token.sequence ∧ ∃ x span, r.template = .atom x ∧ span ≠ .one ∧
      .marker (some x) span ∈ r.pattern.leaves

/-- What replaces a match has no leaves but those of the match and those that are introduced. -/
theorem mem_leaves_of_matches {b : Bindings} (h : r.matches? s = some b)
    (hl : l ∈ (r.template.fill b).leaves) : l ∈ s.leaves ∨ r.Introduces l := by
  have hvalues : b.Supplies l → l ∈ s.leaves := by
    rintro ⟨x, v, hv, hmem⟩
    exact (pieceOf_of_match h hv).1.mem_leaves hmem
  cases ht : r.template.isAtom with
  | false => exact (mem_leaves_fill ht hl).symm.imp hvalues Or.inl
  | true =>
    obtain ⟨x, hx⟩ := exists_atom_of_isAtom ht
    rw [hx] at hl
    rcases mem_leaves_fill_atom hl with rfl | hl | ⟨rfl, es, hrun⟩
    · exact Or.inr (Or.inl (by simp [hx, leaves]))
    · exact Or.inl (hvalues hl)
    · -- only a run marker is bound to a run
      obtain ⟨-, o, ho, hname, hkind, -⟩ := pieceOf_of_match h hrun
      obtain rfl := Token.text_injective hname
      exact Or.inr (Or.inr ⟨rfl, o.name, o.span, hx, (hkind.mp rfl).2,
        mem_leaves_of_mem_occurrencesFrom ho⟩)

/-- A pass invents no leaves. -/
theorem mem_leaves_passed (hl : l ∈ (r.passed s).leaves) : l ∈ s.leaves ∨ r.Introduces l := by
  induction s using induction_on_children with
  | step s ih =>
    cases hmatch : r.matches? s with
    | some b =>
      rw [passed_of_matches hmatch] at hl
      exact mem_leaves_of_matches hmatch hl
    | none =>
      cases s with
      | atom x =>
        rw [passed_leaf hmatch rfl] at hl
        exact Or.inl hl
      | marker x span =>
        rw [passed_leaf hmatch rfl] at hl
        exact Or.inl hl
      | list cs =>
        rw [passed_list hmatch, mem_leaves_list_iff] at hl
        obtain ⟨c', hc', hl⟩ := hl
        obtain ⟨c, hc, rfl⟩ := List.mem_map.mp hc'
        refine (ih c hc hl).imp_left fun hmem => ?_
        exact mem_leaves_list_iff.mpr ⟨c, hc, hmem⟩

/-- Pass after pass, no leaves are invented. -/
theorem mem_leaves_iterate_passed {k : Nat} (hl : l ∈ (r.passed^[k] s).leaves) :
    l ∈ s.leaves ∨ r.Introduces l := by
  induction k with
  | zero => exact Or.inl hl
  | succ k ih =>
    rw [Function.iterate_succ_apply'] at hl
    rcases mem_leaves_passed hl with hl | hl
    · exact ih hl
    · exact Or.inr hl

/-- The tree is a result for the subject: of replacing the root, of one pass, or of passes until
nothing matches. -/
inductive Yields (r : Replacement) (s : Expr) : Expr → Prop where
  /-- the root matched and was replaced -/
  | root {s' : Expr} (h : r.atRoot s = some s') : Yields r s s'
  /-- one pass was made, be the tree changed or not -/
  | pass : Yields r s ((r.pass s).getD s)
  /-- passes were made within a limit, until nothing matched -/
  | normal {limit : Int} {s' : Expr} (h : r.normalize limit s = .ok s') : Yields r s s'

theorem mem_leaves_of_yields (h : r.Yields s s') (hl : l ∈ s'.leaves) :
    l ∈ s.leaves ∨ r.Introduces l := by
  cases h with
  | root h =>
    obtain ⟨b, hb, rfl⟩ := Option.map_eq_some_iff.mp h
    exact mem_leaves_of_matches hb hl
  | pass => exact mem_leaves_passed hl
  | normal h =>
    obtain ⟨k, -, rfl, -⟩ := normalize_eq_ok_iff.mp h
    exact mem_leaves_iterate_passed hl

/-- **Replacing invents no leaves.** Every leaf of a result is a leaf of the subject or of the
template, or it is the atom `Sequence`; that comes in only where the template is one name, and a run
marker of the pattern has that name. So no result has markers if neither the subject nor the
template has any. -/
theorem results_invent_no_leaves (h : r.Yields s s') :
    (∀ l ∈ s'.leaves, l ∈ s.leaves ∨ l ∈ r.template.leaves ∨
      l = .atom Token.sequence ∧ ∃ x span, r.template = .atom x ∧ span ≠ .one ∧
        .marker (some x) span ∈ r.pattern.leaves) ∧
      (s.hasMarkers = false → r.template.hasMarkers = false → s'.hasMarkers = false) := by
  refine ⟨fun l hl => mem_leaves_of_yields h hl, fun hs ht => ?_⟩
  rw [← Bool.not_eq_true, hasMarkers_iff] at hs ht ⊢
  rintro ⟨l, hl, hmarker⟩
  rcases mem_leaves_of_yields h hl with hl | hl | ⟨rfl, -⟩
  · exact hs ⟨l, hl, hmarker⟩
  · exact ht ⟨l, hl, hmarker⟩
  · cases hmarker

/-- With `(f x__)` replaced by `x`, the tree `(f a b)` becomes `(Sequence a b)`, which has a leaf
that stands neither in the subject nor in the template, and no marker. -/
theorem results_invent_no_leaves_but_head :
    let a : Expr := .atom (.letter 'a' rfl)
    let b : Expr := .atom (.letter 'b' rfl)
    let f : Expr := .atom (.letter 'f' rfl)
    let x : Token := .letter 'x' rfl
    let r : Replacement := ⟨.list [f, .marker (some x) .oneOrMore], .atom x, false⟩
    let s : Expr := .list [f, a, b]
    let s' : Expr := .list [.atom Token.sequence, a, b]
    r.Yields s s' ∧ .atom Token.sequence ∈ s'.leaves ∧ .atom Token.sequence ∉ s.leaves ∧
      (∀ l ∈ s'.leaves, l ∈ s.leaves ∨ l ∈ r.template.leaves ∨
        l = .atom Token.sequence ∧ ∃ x span, r.template = .atom x ∧ span ≠ .one ∧
          .marker (some x) span ∈ r.pattern.leaves) ∧
      s.hasMarkers = false ∧ r.template.hasMarkers = false ∧ s'.hasMarkers = false := by
  intro a b f x r s s'
  have hresult : r.normalize 2 s = .ok s' := rfl
  have hyields : r.Yields s s' := .normal hresult
  obtain ⟨hleaves, hmarkers⟩ := results_invent_no_leaves hyields
  exact ⟨hyields, by decide, by decide, hleaves, rfl, rfl, hmarkers rfl rfl⟩

end Replacement

end TreeRules
