import TreeRules.Proofs.Bindings
import TreeRules.Proofs.Template.Values

/-!
# Filling in twice

A template that is filled in twice could as well have been filled in once, with bindings whose
values have been filled in beforehand (`Bindings.Composed`). What the first bindings put in is
filled in by the second ones, and by nothing else: values are put in all at once, and an atom of a
value is not looked up again in the bindings that the value comes from.

Inside a list this holds without exception (`Composed.fillAll`): a run is spliced before the second
bindings come to it, and its trees may be spliced again. A template that is a bare atom has no list
around it. A run bound to it gets the head `Sequence`, which the second bindings see as an atom like
any other, so they must have no value for that name (`Composed.fill_atom`).
-/

namespace TreeRules

/-! ## Filling in values -/

/-- The value when its trees are filled in. An atom takes over the value of its name, which may be a
run. -/
def Value.filled (b : Bindings) : Value → Value
  | .one (.atom y) => (b.value? y.text).getD (.one (.atom y))
  | .one e => .one (e.fill b)
  | .run es => .run (Expr.fillAll es b)
  | .vacant => .vacant

namespace Value

variable {b : Bindings}

theorem filled_one_of_not_isAtom {e : Expr} (he : e.isAtom = false) :
    (Value.one e).filled b = .one (e.fill b) := by
  cases e with
  | atom y => cases he
  | list cs => rfl
  | marker x s => rfl

/-- The trees of a value are filled in as the children of a list are. -/
theorem trees_filled (v : Value) (b : Bindings) :
    (v.filled b).trees = Expr.fillAll v.trees b := by
  cases v with
  | one e =>
    cases he : e.isAtom with
    | true =>
      obtain ⟨y, rfl⟩ := Expr.exists_atom_of_isAtom he
      rw [filled, trees, Expr.fillAll_atom]
      cases b.value? y.text <;> rfl
    | false => rw [filled_one_of_not_isAtom he, trees, trees, Expr.fillAll_of_not_isAtom he]
  | run es => rfl
  | vacant => rw [filled, trees, Expr.fillAll_nil]

theorem filled_ne_vacant {v : Value} (hv : v ≠ .vacant) : v.filled b ≠ .vacant := by
  cases v with
  | one e =>
    cases he : e.isAtom with
    | true =>
      obtain ⟨y, rfl⟩ := Expr.exists_atom_of_isAtom he
      rw [filled]
      cases hy : b.value? y.text with
      | none => exact hv
      | some w => exact (Bindings.value?_eq_some_iff.mp hy).2
    | false =>
      rw [filled_one_of_not_isAtom he]
      exact Value.noConfusion
  | run es => exact Value.noConfusion
  | vacant => exact absurd rfl hv

end Value

namespace Bindings

variable {b₁ b₂ b₃ : Bindings}

/-! ## Composed bindings -/

/-- The third bindings are the first ones with the second ones filled in. -/
structure Composed (b₁ b₂ b₃ : Bindings) : Prop where
  /-- a name without a value in the first keeps the one it has in the second -/
  unbound : ∀ x, b₁.value? x = none → b₃.value? x = b₂.value? x
  /-- an atom is replaced by the value of its name, and stays if it has none -/
  atom : ∀ x (y : Token), b₁.value? x = some (.one (.atom y)) →
    b₃.value? x = some ((b₂.value? y.text).getD (.one (.atom y)))
  /-- any other tree is filled in -/
  tree : ∀ x e, b₁.value? x = some (.one e) → e.isAtom = false →
    b₃.value? x = some (.one (e.fill b₂))
  /-- a run is filled in as the children of a list are, and stays a run -/
  run : ∀ x es, b₁.value? x = some (.run es) → b₃.value? x = some (.run (Expr.fillAll es b₂))

/-- All that has a value in the first bindings has it filled in. -/
theorem Composed.value?_of_some (h : Composed b₁ b₂ b₃) {x : String} {v : Value}
    (hx : b₁.value? x = some v) : b₃.value? x = some (v.filled b₂) := by
  cases v with
  | one e =>
    cases he : e.isAtom with
    | true =>
      obtain ⟨y, rfl⟩ := Expr.exists_atom_of_isAtom he
      exact h.atom x y hx
    | false => rw [h.tree x e hx he, Value.filled_one_of_not_isAtom he]
  | run es => exact h.run x es hx
  | vacant => exact absurd rfl (value?_eq_some_iff.mp hx).2

/-- The entries of the first bindings that templates see, filled in with the second ones. -/
def filledEntries (b₁ b₂ : Bindings) : List (String × Value) :=
  (b₁.entries.filter fun e => e.2 ≠ .vacant).map fun e => (e.1, e.2.filled b₂)

theorem mem_filledEntries {x : String} {w : Value} :
    (x, w) ∈ b₁.filledEntries b₂ ↔ ∃ v, b₁.value? x = some v ∧ w = v.filled b₂ := by
  simp only [filledEntries, value?_eq_some_iff, find?_eq_some_iff, List.mem_map, List.mem_filter]
  refine ⟨?_, ?_⟩
  · rintro ⟨⟨y, v⟩, ⟨hv, hne⟩, heq⟩
    cases heq
    exact ⟨v, ⟨hv, by simpa using hne⟩, rfl⟩
  · rintro ⟨v, ⟨hv, hne⟩, rfl⟩
    exact ⟨(x, v), ⟨hv, by simpa using hne⟩, rfl⟩

/-- The first bindings, filled in with the second ones, written over the second ones. -/
def andThen (b₁ b₂ : Bindings) : Bindings := b₂.overwrite (b₁.filledEntries b₂)

theorem value?_andThen_of_some {x : String} {v : Value} (hx : b₁.value? x = some v) :
    (b₁.andThen b₂).value? x = some (v.filled b₂) := by
  have hne : v ≠ .vacant := (value?_eq_some_iff.mp hx).2
  have hmem : (x, v.filled b₂) ∈ b₁.filledEntries b₂ := mem_filledEntries.mpr ⟨v, hx, rfl⟩
  have honly : ∀ w, (x, w) ∈ b₁.filledEntries b₂ → w = v.filled b₂ := by
    intro w hw
    obtain ⟨u, hu, rfl⟩ := mem_filledEntries.mp hw
    rw [Option.some.inj (hu.symm.trans hx)]
  exact value?_eq_some_iff.mpr
    ⟨find?_overwrite_of_forall (Or.inl hmem) honly, Value.filled_ne_vacant hne⟩

theorem value?_andThen_of_none {x : String} (hx : b₁.value? x = none) :
    (b₁.andThen b₂).value? x = b₂.value? x := by
  have hnot : ∀ w, (x, w) ∉ b₁.filledEntries b₂ := by
    intro w hw
    obtain ⟨u, hu, -⟩ := mem_filledEntries.mp hw
    rw [hx] at hu
    cases hu
  rw [value?, andThen, find?_overwrite_of_notMem hnot, value?]

theorem composed_andThen (b₁ b₂ : Bindings) : Composed b₁ b₂ (b₁.andThen b₂) where
  unbound _ hx := value?_andThen_of_none hx
  atom _ _ hx := value?_andThen_of_some hx
  tree x e hx he := by rw [value?_andThen_of_some hx, Value.filled_one_of_not_isAtom he]
  run _ _ hx := value?_andThen_of_some hx

/-! ## Filling in twice -/

namespace Composed

/-- A child that is an atom becomes the same trees either way. -/
theorem fillAll_atom (h : Composed b₁ b₂ b₃) (x : Token) :
    Expr.fillAll (Expr.fillAll [.atom x] b₁) b₂ = Expr.fillAll [.atom x] b₃ := by
  rw [Expr.fillAll_atom x b₁, Expr.fillAll_atom x b₃]
  cases hx : b₁.value? x.text with
  | none => rw [h.unbound _ hx, Option.elim_none, Expr.fillAll_atom]
  | some v =>
    rw [h.value?_of_some hx, Option.elim_some, Option.elim_some]
    exact (v.trees_filled b₂).symm

mutual

/-- **Filling in twice is filling in once**, where the template is not a bare atom. -/
theorem fill (h : Composed b₁ b₂ b₃) (t : Expr) (ht : t.isAtom = false) :
    (t.fill b₁).fill b₂ = t.fill b₃ := by
  match t with
  | .atom x => cases ht
  | .list cs => rw [Expr.fill_list, Expr.fill_list, Expr.fill_list, fillAll h cs]
  | .marker x s => rw [Expr.fill_marker, Expr.fill_marker, Expr.fill_marker]

/-- Children filled in twice are children filled in once. -/
theorem fillAll (h : Composed b₁ b₂ b₃) (ts : List Expr) :
    Expr.fillAll (Expr.fillAll ts b₁) b₂ = Expr.fillAll ts b₃ := by
  match ts with
  | [] => rw [Expr.fillAll_nil, Expr.fillAll_nil, Expr.fillAll_nil]
  | t :: ts =>
    have hfirst : Expr.fillAll (Expr.fillAll [t] b₁) b₂ = Expr.fillAll [t] b₃ := by
      cases ht : t.isAtom with
      | true =>
        obtain ⟨x, rfl⟩ := Expr.exists_atom_of_isAtom ht
        exact h.fillAll_atom x
      | false =>
        rw [Expr.fillAll_of_not_isAtom ht, Expr.fillAll_of_not_isAtom ht,
          Expr.fillAll_of_not_isAtom (Expr.isAtom_fill ht b₁), fill h t ht]
    -- what the first child becomes stands in front of what the others become, both times
    rw [← List.singleton_append, Expr.fillAll_append, Expr.fillAll_append, Expr.fillAll_append,
      hfirst, fillAll h ts]

end

/-- A bare atom may become a list with the head `Sequence`. If that name has no value, nothing else
comes in. -/
theorem fill_atom (h : Composed b₁ b₂ b₃) (hhead : b₂.value? Token.sequence.text = none)
    (x : Token) : ((Expr.atom x).fill b₁).fill b₂ = (Expr.atom x).fill b₃ := by
  cases hx : b₁.value? x.text with
  | none =>
    rw [Expr.fill_atom_of_value?_eq_none hx]
    exact Expr.fill_atom_congr_value? (h.unbound _ hx).symm
  | some v =>
    cases v with
    | one e =>
      rw [Expr.fill_atom_of_value?_eq_one hx]
      cases he : e.isAtom with
      | true =>
        obtain ⟨y, rfl⟩ := Expr.exists_atom_of_isAtom he
        have hx₃ := h.atom _ y hx
        cases hy : b₂.value? y.text with
        | none =>
          rw [hy] at hx₃
          rw [Expr.fill_atom_of_value?_eq_none hy, Expr.fill_atom_of_value?_eq_one hx₃]
        | some w =>
          rw [hy] at hx₃
          exact Expr.fill_atom_eq_of_value? hy hx₃
      | false => rw [Expr.fill_atom_of_value?_eq_one (h.tree _ e hx he)]
    | run es =>
      have hkept : Expr.fillAll [.atom Token.sequence] b₂ = [.atom Token.sequence] := by
        rw [Expr.fillAll_atom, hhead, Option.elim_none]
      rw [Expr.fill_atom_of_value?_eq_run hx, Expr.fill_atom_of_value?_eq_run (h.run _ es hx),
        Expr.fill_list, ← List.singleton_append, Expr.fillAll_append, hkept]
      rfl
    | vacant => exact absurd rfl (value?_eq_some_iff.mp hx).2

end Composed

/-- **Filling in twice is filling in once with composed bindings.** These exist for any two
bindings, and whatever bindings have the composed values will do. The template is no bare atom, or
the second bindings have no value for the head that a run gets where it cannot be spliced. -/
theorem fill_twice (b₁ b₂ : Bindings) :
    (∃ b₃, Composed b₁ b₂ b₃) ∧
      ∀ b₃, Composed b₁ b₂ b₃ → ∀ t : Expr,
        t.isAtom = false ∨ b₂.value? Token.sequence.text = none →
        (t.fill b₁).fill b₂ = t.fill b₃ := by
  refine ⟨⟨b₁.andThen b₂, composed_andThen b₁ b₂⟩, fun b₃ h t ht => ?_⟩
  cases hatom : t.isAtom with
  | false => exact h.fill t hatom
  | true =>
    have hhead : b₂.value? Token.sequence.text = none := by
      rcases ht with ht | ht
      · rw [hatom] at ht
        cases ht
      · exact ht
    obtain ⟨x, rfl⟩ := Expr.exists_atom_of_isAtom hatom
    exact h.fill_atom hhead x

/-- With `x` bound to the run `y (g y)` and `y` to `z`, and then `y` bound to the run `a b` and `z`
to `c`: the run is spliced, and its `y` is spliced again. The `z` that comes in for `y` is replaced
by `c`, but the `y` that comes in for `x` is not replaced by `z`. -/
theorem fill_twice_splices_twice :
    let a : Expr := .atom (.letter 'a' rfl)
    let b : Expr := .atom (.letter 'b' rfl)
    let c : Expr := .atom (.letter 'c' rfl)
    let g : Expr := .atom (.letter 'g' rfl)
    let x : Expr := .atom (.letter 'x' rfl)
    let y : Expr := .atom (.letter 'y' rfl)
    let z : Expr := .atom (.letter 'z' rfl)
    let b₁ : Bindings := .ofEntries [("x", .run [y, .list [g, y]]), ("y", .one z)]
    let b₂ : Bindings := .ofEntries [("y", .run [a, b]), ("z", .one c)]
    let b₃ : Bindings :=
      .ofEntries [("y", .one c), ("z", .one c), ("x", .run [a, b, .list [g, a, b]])]
    let t : Expr := .list [g, x, y]
    Composed b₁ b₂ b₃ ∧ t.isAtom = false ∧ b₂.value? Token.sequence.text = none ∧
      (t.fill b₁).fill b₂ = t.fill b₃ ∧ t.fill b₃ = .list [g, a, b, .list [g, a, b], c] ∧
      (x.fill b₁).fill b₂ = x.fill b₃ := by
  intro a b c g x y z b₁ b₂ b₃ t
  have hcomposed : Composed b₁ b₂ b₃ := by
    have heq : b₁.andThen b₂ = b₃ := by decide
    exact heq ▸ composed_andThen b₁ b₂
  have hhead : b₂.value? Token.sequence.text = none := by decide
  obtain ⟨-, htwice⟩ := fill_twice b₁ b₂
  exact ⟨hcomposed, rfl, hhead, htwice b₃ hcomposed t (Or.inl rfl), by decide,
    htwice b₃ hcomposed x (Or.inr hhead)⟩

end Bindings

end TreeRules
