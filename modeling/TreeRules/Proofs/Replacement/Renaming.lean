import TreeRules.Proofs.Matching.Reconstruction
import TreeRules.Proofs.Matching.Renaming
import TreeRules.Replacement.Fixpoint

/-!
# Other names for the variables of a rule

A rule does the same whatever its variables are called. In the pattern they are renamed where they
are variables, in the template where they are atoms. No two of them may get one name, and none the
name of an atom that stands in the template for itself; it does no harm when a literal atom of the
pattern has that name, or a variable that is renamed as well.

A match binds every variable of its pattern to a tree or a run (`exists_find?_of_match`). So every
renamed atom of the template has its old value, and all other atoms have none, before and after
(`fill_renamed`). What follows a match, in one pass or in many, depends on the rule only through
what it makes of a tree at the root (`pass_congr`, `normalize_congr`).
-/

namespace TreeRules

variable {f : Token → Token} {xs : List Token}

namespace Expr

open Assignment

variable {b b' : Bindings}

/-! ## Templates -/

mutual

/-- The template with new names for the atoms that stand for these variables. -/
def renameAtoms (xs : List Token) (f : Token → Token) : Expr → Expr
  | .atom x => .atom (if x ∈ xs then f x else x)
  | .list cs => .list (renameAtomsAll xs f cs)
  | .marker x s => .marker x s

/-- The templates with new names for the atoms that stand for these variables. -/
def renameAtomsAll (xs : List Token) (f : Token → Token) : List Expr → List Expr
  | [] => []
  | e :: es => renameAtoms xs f e :: renameAtomsAll xs f es

end

/-- What fills an atom depends on the value of its name only. -/
theorem fill_atom_congr {x y : Token} {v : Value} (hv : v ≠ .vacant)
    (hx : b.find? x.text = some v) (hy : b'.find? y.text = some v) :
    spliced? (.atom y) b' = spliced? (.atom x) b ∧ (atom y).fill b' = (atom x).fill b := by
  rw [spliced?, spliced?, hx, hy]
  refine ⟨rfl, ?_⟩
  cases v with
  | one e => rw [fill_atom_of_one hx, fill_atom_of_one hy]
  | run es => rw [fill_atom_of_run hx, fill_atom_of_run hy]
  | vacant => exact absurd rfl hv

mutual

/-- **A renamed template is filled in alike**, if all of the variables have values and none of them
is renamed to an atom that stands for itself. -/
theorem fill_renamed (h : b.Renamed f xs b') (hf : ∀ x ∈ xs, ∀ y ∈ xs, f x = f y → x = y)
    (hbound : ∀ x ∈ xs, ∃ v, v ≠ .vacant ∧ b.find? x.text = some v) (t : Expr)
    (hfresh : ∀ x ∈ t.literals, x ∉ xs → ∀ y ∈ xs, f y ≠ x) :
    spliced? (t.renameAtoms xs f) b' = spliced? t b ∧ (t.renameAtoms xs f).fill b' = t.fill b := by
  match t with
  | .atom x =>
    rw [renameAtoms]
    by_cases hx : x ∈ xs
    · obtain ⟨v, hv, hfind⟩ := hbound x hx
      rw [if_pos hx]
      exact fill_atom_congr hv hfind ((h.find? hf hx).trans hfind)
    · have hfind := h.find?_eq_none_of_notMem hx
      have hfind' := h.find?_eq_none_of_fresh (hfresh x (List.mem_singleton_self x) hx)
      rw [if_neg hx, spliced?, spliced?, hfind, hfind', fill_atom_of_none hfind,
        fill_atom_of_none hfind']
      exact ⟨rfl, rfl⟩
  | .list cs =>
    rw [renameAtoms, fill_list, fill_list, fillAll_renamed h hf hbound cs hfresh]
    exact ⟨rfl, rfl⟩
  | .marker x s =>
    rw [renameAtoms, fill_marker, fill_marker]
    exact ⟨rfl, rfl⟩

/-- Renamed templates of children are filled in alike. -/
theorem fillAll_renamed (h : b.Renamed f xs b') (hf : ∀ x ∈ xs, ∀ y ∈ xs, f x = f y → x = y)
    (hbound : ∀ x ∈ xs, ∃ v, v ≠ .vacant ∧ b.find? x.text = some v) (ts : List Expr)
    (hfresh : ∀ x ∈ literalsAll ts, x ∉ xs → ∀ y ∈ xs, f y ≠ x) :
    fillAll (renameAtomsAll xs f ts) b' = fillAll ts b := by
  match ts with
  | [] => rw [renameAtomsAll, fillAll_nil, fillAll_nil]
  | t :: ts =>
    obtain ⟨hsplice, hfill⟩ := fill_renamed h hf hbound t fun x hx =>
      hfresh x (List.mem_append_left _ hx)
    have hrest := fillAll_renamed h hf hbound ts fun x hx =>
      hfresh x (List.mem_append_right _ hx)
    rw [renameAtomsAll, fillAll_cons, fillAll_cons, hsplice, hfill, hrest]

end

/-! ## Values of variables -/

mutual

/-- A variable stands for a tree or a run. -/
theorem Fits.ne_vacant {p e : Expr} {a : Assignment} (h : Fits p e a) {n : String} {v : Value}
    (hv : (n, v) ∈ a.entries) : v ≠ .vacant := by
  match p with
  | .atom x =>
    rw [(fits_atom_iff.mp h).2] at hv
    cases hv
  | .list ps =>
    obtain ⟨es, -, hs⟩ := fits_list_iff.mp h
    exact FitsAll.ne_vacant hs hv
  | .marker none s =>
    rw [fits_marker_iff.mp h] at hv
    cases hv
  | .marker (some x) s =>
    rw [fits_marker_iff.mp h] at hv
    cases List.mem_singleton.mp hv
    exact Value.noConfusion

/-- The variables of several patterns stand for trees or runs. -/
theorem FitsAll.ne_vacant {ps es : List Expr} {a : Assignment} (h : FitsAll ps es a) {n : String}
    {v : Value} (hv : (n, v) ∈ a.entries) : v ≠ .vacant := by
  match ps with
  | [] =>
    rw [(fitsAll_nil_iff.mp h).2] at hv
    cases hv
  | p :: ps =>
    cases hp : p.isRunMarker with
    | true =>
      obtain ⟨x, s, rfl, hs⟩ := isRunMarker_iff.mp hp
      obtain ⟨k, a', -, -, rfl, h'⟩ := (fitsAll_run_iff hs).mp h
      cases x with
      | none => exact FitsAll.ne_vacant h' hv
      | some x =>
        rcases List.mem_cons.mp hv with heq | hv
        · cases heq
          exact Value.noConfusion
        · exact FitsAll.ne_vacant h' hv
    | false =>
      obtain ⟨e, es, a₁, a₂, rfl, rfl, h₁, h₂⟩ := (fitsAll_single_iff hp).mp h
      rw [entries_append, List.mem_append] at hv
      rcases hv with hv | hv
      · exact Fits.ne_vacant h₁ hv
      · exact FitsAll.ne_vacant h₂ hv

end

/-- A match binds every variable of its pattern. -/
theorem exists_find?_of_match {strict : Bool} {p s : Expr} (h : matchAgainst strict p s = some b) :
    ∀ x ∈ p.vars, ∃ v, v ≠ .vacant ∧ b.find? x.text = some v := by
  intro x hx
  obtain ⟨a, hfit, -, rfl⟩ := matchTree_sound h
  have hname : x.text ∈ a.entries.map Prod.fst := by
    rw [hfit.names_entries]
    exact List.mem_map_of_mem hx
  obtain ⟨v, hv, hfind⟩ := Bindings.exists_find?_overwrite_of_mem hname
  exact ⟨v, hfit.ne_vacant hv, hfind⟩

end Expr

/-! ## Rules that do the same at the root -/

namespace Replacement

variable {r r' : Replacement}

mutual

/-- What a pass does depends only on what is done at the roots of subtrees. -/
theorem pass_congr (h : ∀ e, r'.atRoot e = r.atRoot e) (e : Expr) : r'.pass e = r.pass e := by
  cases hroot : r.atRoot e with
  | some e' => rw [pass_of_atRoot hroot, pass_of_atRoot ((h e).trans hroot)]
  | none =>
    have hroot' := (h e).trans hroot
    match e with
    | .atom x => rw [pass_leaf hroot rfl, pass_leaf hroot' rfl]
    | .list cs => rw [pass_list hroot, pass_list hroot', passAll_congr h cs]
    | .marker x s => rw [pass_leaf hroot rfl, pass_leaf hroot' rfl]

/-- The same holds for a list of trees. -/
theorem passAll_congr (h : ∀ e, r'.atRoot e = r.atRoot e) (es : List Expr) :
    r'.passAll es = r.passAll es := by
  match es with
  | [] => rw [passAll_nil, passAll_nil]
  | e :: es => rw [passAll, passAll, pass_congr h e, passAll_congr h es]

end

theorem iterate_congr (h : ∀ e, r'.pass e = r.pass e) (limit done : Nat) (e : Expr) :
    r'.iterate limit done e = r.iterate limit done e := by
  induction limit generalizing done e with
  | zero => rfl
  | succ limit ih =>
    rw [iterate, iterate, h e]
    cases r.pass e with
    | none => rfl
    | some e' => exact ih (done + 1) e'

theorem normalize_congr (h : ∀ e, r'.pass e = r.pass e) (limit : Int) (e : Expr) :
    r'.normalize limit e = r.normalize limit e := by
  rw [normalize, normalize, iterate_congr h]

/-! ## Renamed rules -/

/-- The rule with new names for its variables. -/
def renamed (f : Token → Token) (r : Replacement) : Replacement where
  pattern := r.pattern.renameVars f
  template := r.template.renameAtoms r.pattern.vars f
  strict := r.strict

theorem matches?_renamed (hf : ∀ x ∈ r.pattern.vars, ∀ y ∈ r.pattern.vars, f x = f y → x = y)
    (s : Expr) :
    Option.Rel (Bindings.Renamed f r.pattern.vars) (r.matches? s) ((r.renamed f).matches? s) :=
  Expr.matchAgainst_renamed hf r.strict s

theorem atRoot_renamed (hf : ∀ x ∈ r.pattern.vars, ∀ y ∈ r.pattern.vars, f x = f y → x = y)
    (hfresh : ∀ x ∈ r.template.literals, x ∉ r.pattern.vars → ∀ y ∈ r.pattern.vars, f y ≠ x)
    (s : Expr) : (r.renamed f).atRoot s = r.atRoot s := by
  have hmatch := matches?_renamed hf s
  rw [atRoot, atRoot]
  cases hb : r.matches? s with
  | none =>
    rw [hb] at hmatch
    rw [eq_none_of_rel hmatch]
    rfl
  | some b =>
    rw [hb] at hmatch
    obtain ⟨b', hb', hrenamed⟩ := exists_of_rel_some hmatch
    have hbound := Expr.exists_find?_of_match hb
    rw [hb', Option.map_some, Option.map_some]
    exact congrArg some (Expr.fill_renamed hrenamed hf hbound r.template hfresh).2

/-- **What the variables of a rule are called does not matter.** Different variables keep different
names, and none gets the name of an atom that stands in the template for itself. Then the renamed
pattern matches the same trees, with the same values in the same order under the new names, and the
renamed rule gives the same results, at the root, in one pass, and in passes until nothing
matches. -/
theorem renaming_changes_nothing (r : Replacement) (f : Token → Token)
    (hf : ∀ x ∈ r.pattern.vars, ∀ y ∈ r.pattern.vars, f x = f y → x = y)
    (hfresh : ∀ x ∈ r.template.literals, x ∉ r.pattern.vars → ∀ y ∈ r.pattern.vars, f y ≠ x)
    (s : Expr) :
    Option.Rel (Bindings.Renamed f r.pattern.vars) (r.matches? s) ((r.renamed f).matches? s) ∧
      (r.renamed f).atRoot s = r.atRoot s ∧ (r.renamed f).pass s = r.pass s ∧
      ∀ limit, (r.renamed f).normalize limit s = r.normalize limit s := by
  have hroot := atRoot_renamed hf hfresh
  have hpass := pass_congr hroot
  exact ⟨matches?_renamed hf s, hroot s, hpass s, fun limit => normalize_congr hpass limit s⟩

/-- In `(h x_ y___ x_)`, matched strictly and replaced by `(g y x c)`, the variable `x` may get the
name of the head `h`, and `y` the old name of `x`. Both rules make `(g b a c)` of `(h a b a)`. -/
theorem renaming_to_head_changes_nothing :
    let name (c : Char) (h : isNameChar c = true) : Expr := .atom (.letter c h)
    let a : Expr := name 'a' rfl
    let b : Expr := name 'b' rfl
    let c : Expr := name 'c' rfl
    let g : Expr := name 'g' rfl
    let h : Expr := name 'h' rfl
    let x : Expr := name 'x' rfl
    let y : Expr := name 'y' rfl
    let var (c : Char) (h : isNameChar c = true) : Span → Expr := .marker (some (.letter c h))
    let pattern : Expr := .list [h, var 'x' rfl .one, var 'y' rfl .zeroOrMore, var 'x' rfl .one]
    let pattern' : Expr := .list [h, var 'h' rfl .one, var 'x' rfl .zeroOrMore, var 'h' rfl .one]
    let r : Replacement := ⟨pattern, .list [g, y, x, c], true⟩
    let f : Token → Token :=
      fun t => if t = .letter 'x' rfl then .letter 'h' rfl else .letter 'x' rfl
    let s : Expr := .list [h, a, b, a]
    r.renamed f = ⟨pattern', .list [g, x, h, c], true⟩ ∧
      (∀ x ∈ r.pattern.vars, ∀ y ∈ r.pattern.vars, f x = f y → x = y) ∧
      (∀ x ∈ r.template.literals, x ∉ r.pattern.vars → ∀ y ∈ r.pattern.vars, f y ≠ x) ∧
      Option.Rel (Bindings.Renamed f r.pattern.vars) (r.matches? s) ((r.renamed f).matches? s) ∧
      r.atRoot s = some (.list [g, b, a, c]) ∧ (r.renamed f).atRoot s = r.atRoot s ∧
      (r.renamed f).pass s = r.pass s ∧ (r.renamed f).normalize 2 s = r.normalize 2 s := by
  intro name a b c g h x y var pattern pattern' r f s
  have hf : ∀ x ∈ r.pattern.vars, ∀ y ∈ r.pattern.vars, f x = f y → x = y := by decide
  have hfresh : ∀ x ∈ r.template.literals, x ∉ r.pattern.vars → ∀ y ∈ r.pattern.vars, f y ≠ x := by
    decide
  obtain ⟨hmatch, hroot, hpass, hnormal⟩ := renaming_changes_nothing r f hf hfresh s
  exact ⟨rfl, hf, hfresh, hmatch, by decide, hroot, hpass, hnormal 2⟩

end Replacement

end TreeRules
