import TreeRules.Template

/-!
# Templates by the values of their names

A template depends on bindings only through the values of its atoms, and a vacant value counts as
none (`Bindings.value?`). An atom with a value becomes the trees of that value where a list is
around it (`fillAll_atom`); everything else becomes one tree (`fillAll_of_not_isAtom`). So children
are filled in one by one, and what they become is put together (`fillAll_append`).
-/

namespace TreeRules

/-- The trees of a value, as a list around it takes them in. -/
def Value.trees : Value → List Expr
  | .one e => [e]
  | .run es => es
  | .vacant => []

namespace Bindings

variable {b : Bindings} {x : String} {v : Value}

/-- The value that templates see: a name with a vacant value has none. -/
def value? (b : Bindings) (x : String) : Option Value := (b.find? x).filter (· ≠ .vacant)

theorem value?_eq_some_iff : b.value? x = some v ↔ b.find? x = some v ∧ v ≠ .vacant := by
  simp [value?]

theorem value?_eq_none_iff :
    b.value? x = none ↔ b.find? x = none ∨ b.find? x = some .vacant := by
  cases h : b.find? x <;> simp [value?, h]

end Bindings

namespace Expr

variable {b b' : Bindings} {x y : Token}

/-! ## Atoms -/

theorem exists_atom_of_isAtom {t : Expr} (ht : t.isAtom = true) : ∃ x, t = .atom x := by
  cases t with
  | atom x => exact ⟨x, rfl⟩
  | list cs => cases ht
  | marker x s => cases ht

theorem fill_atom_of_value?_eq_none (h : b.value? x.text = none) : fill (.atom x) b = .atom x := by
  rcases Bindings.value?_eq_none_iff.mp h with hx | hx <;> simp [fill, hx]

theorem fill_atom_of_value?_eq_one {e : Expr} (h : b.value? x.text = some (.one e)) :
    fill (.atom x) b = e :=
  fill_atom_of_one (Bindings.value?_eq_some_iff.mp h).1

theorem fill_atom_of_value?_eq_run {es : List Expr} (h : b.value? x.text = some (.run es)) :
    fill (.atom x) b = .list (.atom Token.sequence :: es) :=
  fill_atom_of_run (Bindings.value?_eq_some_iff.mp h).1

/-- Atoms with the same value become the same tree. -/
theorem fill_atom_eq_of_value? {v : Value} (hx : b.value? x.text = some v)
    (hy : b'.value? y.text = some v) : fill (.atom x) b = fill (.atom y) b' := by
  cases v with
  | one e => rw [fill_atom_of_value?_eq_one hx, fill_atom_of_value?_eq_one hy]
  | run es => rw [fill_atom_of_value?_eq_run hx, fill_atom_of_value?_eq_run hy]
  | vacant => exact absurd rfl (Bindings.value?_eq_some_iff.mp hx).2

/-- What an atom becomes depends on its value only. -/
theorem fill_atom_congr_value? (h : b.value? x.text = b'.value? x.text) :
    fill (.atom x) b = fill (.atom x) b' := by
  cases hx : b.value? x.text with
  | none => rw [fill_atom_of_value?_eq_none hx, fill_atom_of_value?_eq_none (h ▸ hx)]
  | some v => exact fill_atom_eq_of_value? hx (h ▸ hx)

/-! ## Children -/

theorem fillAll_append (cs ds : List Expr) (b : Bindings) :
    fillAll (cs ++ ds) b = fillAll cs b ++ fillAll ds b := by
  induction cs with
  | nil => simp
  | cons c cs ih => rw [List.cons_append, fillAll_cons, fillAll_cons, ih, List.append_assoc]

/-- Inside a list an atom becomes the trees of its value. -/
theorem fillAll_atom (x : Token) (b : Bindings) :
    fillAll [.atom x] b = (b.value? x.text).elim [.atom x] Value.trees := by
  rw [fillAll_cons, fillAll_nil, List.append_nil]
  cases hx : b.value? x.text with
  | none =>
    rw [fill_atom_of_value?_eq_none hx]
    rcases Bindings.value?_eq_none_iff.mp hx with hx | hx <;> simp [spliced?, hx]
  | some v =>
    obtain ⟨hfind, hv⟩ := Bindings.value?_eq_some_iff.mp hx
    cases v with
    | one e => simp [spliced?, fill, hfind, Value.trees]
    | run es => simp [spliced?, hfind, Value.trees]
    | vacant => exact absurd rfl hv

/-- What is no atom becomes none. -/
theorem isAtom_fill {t : Expr} (ht : t.isAtom = false) (b : Bindings) :
    (t.fill b).isAtom = false := by
  cases t with
  | atom x => cases ht
  | list cs =>
    rw [fill_list]
    rfl
  | marker x s =>
    rw [fill_marker]
    rfl

/-- Any other template becomes one tree. -/
theorem fillAll_of_not_isAtom {t : Expr} (ht : t.isAtom = false) (b : Bindings) :
    fillAll [t] b = [t.fill b] := by
  rw [fillAll_cons, fillAll_nil, List.append_nil]
  cases t with
  | atom x => cases ht
  | list cs => rfl
  | marker x s => rfl

end Expr

end TreeRules
