import TreeRules.Template
import TreeRules.Proofs.Matching.Search

/-!
# A match gives its subject back

Read a pattern as a template: every variable becomes the atom of its name, and everything else is
kept (`asTemplate`). Filling that template with what a match bound gives the subject again
(`fill_asTemplate_of_match`). Three things could come in between, and each has its condition:

* a wildcard binds nothing, so nothing can be put in its place;
* a literal atom that is named like a variable would be replaced as well;
* of a variable that occurs again only the last value is kept, unless matching is strict.

A run is spliced just where the match took it, and one tree is put where it took one tree: the two
are told apart by the value, as a template has no spans.
-/

namespace TreeRules

namespace Expr

open Assignment

/-! ## Patterns as templates -/

mutual

/-- The template that names the variables of the pattern in their places. -/
def asTemplate : Expr → Expr
  | .atom x => .atom x
  | .list cs => .list (asTemplates cs)
  | .marker (some x) _ => .atom x
  | .marker none s => .marker none s

/-- The templates of several patterns. -/
def asTemplates : List Expr → List Expr
  | [] => []
  | c :: cs => asTemplate c :: asTemplates cs

end

mutual

/-- The literal atoms of a pattern in pre-order, with repetitions. -/
def literals : Expr → List Token
  | .atom x => [x]
  | .list cs => literalsAll cs
  | .marker _ _ => []

/-- The literal atoms of several patterns, from the first pattern to the last. -/
def literalsAll : List Expr → List Token
  | [] => []
  | c :: cs => literals c ++ literalsAll cs

end

mutual

/-- Does a marker without a name stand anywhere in the pattern? -/
def hasWildcards : Expr → Bool
  | .atom _ => false
  | .list cs => anyHasWildcards cs
  | .marker x _ => x.isNone

/-- Does a marker without a name stand anywhere in one of the patterns? -/
def anyHasWildcards : List Expr → Bool
  | [] => false
  | c :: cs => hasWildcards c || anyHasWildcards cs

end

/-! ## Filling in what the markers stand for -/

mutual

/-- Bindings that give every variable the value it stands for, and no literal a value, turn the
template into the subject. No list around it has to take in a run. -/
theorem Fits.fill_asTemplate {p e : Expr} {a : Assignment} {b : Bindings} (h : Fits p e a)
    (hw : p.hasWildcards = false) (hb : ∀ x v, (x, v) ∈ a.entries → b.find? x = some v)
    (hl : ∀ x ∈ p.literals, b.find? x.text = none) :
    spliced? p.asTemplate b = none ∧ p.asTemplate.fill b = e := by
  match p with
  | .atom x =>
    obtain ⟨rfl, -⟩ := fits_atom_iff.mp h
    have hx : b.find? x.text = none := hl x (by simp [literals])
    rw [asTemplate, spliced?, hx]
    exact ⟨rfl, fill_atom_of_none hx⟩
  | .list ps =>
    obtain ⟨es, rfl, hs⟩ := fits_list_iff.mp h
    rw [hasWildcards] at hw
    rw [literals] at hl
    rw [asTemplate, fill_list, FitsAll.fillAll_asTemplates hs hw hb hl]
    exact ⟨rfl, rfl⟩
  | .marker none s => cases hw
  | .marker (some x) s =>
    obtain rfl := fits_marker_iff.mp h
    have hx : b.find? x.text = some (.one e) := hb x.text (.one e) (by simp)
    rw [asTemplate, spliced?, hx]
    exact ⟨rfl, fill_atom_of_one hx⟩

/-- Such bindings turn the templates of several patterns into the subjects, with every run spliced
where it was taken. -/
theorem FitsAll.fillAll_asTemplates {ps es : List Expr} {a : Assignment} {b : Bindings}
    (h : FitsAll ps es a) (hw : anyHasWildcards ps = false)
    (hb : ∀ x v, (x, v) ∈ a.entries → b.find? x = some v)
    (hl : ∀ x ∈ literalsAll ps, b.find? x.text = none) : fillAll (asTemplates ps) b = es := by
  match ps with
  | [] =>
    rw [(fitsAll_nil_iff.mp h).1, asTemplates, fillAll_nil]
  | p :: ps =>
    rw [anyHasWildcards, Bool.or_eq_false_iff] at hw
    have hlp : ∀ x ∈ literals p, b.find? x.text = none := fun x hx =>
      hl x (List.mem_append_left _ hx)
    have hlps : ∀ x ∈ literalsAll ps, b.find? x.text = none := fun x hx =>
      hl x (List.mem_append_right _ hx)
    rw [asTemplates, fillAll_cons]
    cases hp : p.isRunMarker with
    | true =>
      obtain ⟨x, s, rfl, hs⟩ := isRunMarker_iff.mp hp
      obtain ⟨n, a', -, -, rfl, h'⟩ := (fitsAll_run_iff hs).mp h
      cases x with
      | none => cases hw.1
      | some x =>
        have hx : b.find? x.text = some (.run (es.take n)) := hb _ _ (by simp)
        -- the run comes back by splicing, without a list around it
        have hrest : fillAll (asTemplates ps) b = es.drop n :=
          FitsAll.fillAll_asTemplates h' hw.2 (fun y v hv => hb y v (by simp [hv])) hlps
        rw [asTemplate, spliced?, hx, Option.getD_some, hrest, List.take_append_drop]
    | false =>
      obtain ⟨e, es, a₁, a₂, rfl, rfl, h₁, h₂⟩ := (fitsAll_single_iff hp).mp h
      obtain ⟨hsplice, hfill⟩ :=
        Fits.fill_asTemplate h₁ hw.1 (fun y v hv => hb y v (by simp [hv])) hlp
      rw [hsplice, hfill, Option.getD_none,
        FitsAll.fillAll_asTemplates h₂ hw.2 (fun y v hv => hb y v (by simp [hv])) hlps]
      rfl

end

/-! ## Matching and filling in -/

/-- **A match gives its subject back.** The pattern has no wildcards, none of its literal atoms is
named like one of its variables, and matching is strict or no variable occurs twice. -/
theorem fill_asTemplate_of_match {strict : Bool} {p s : Expr} {b : Bindings}
    (hw : p.hasWildcards = false) (hl : ∀ x ∈ p.literals, x ∉ p.vars)
    (hd : strict = false → p.vars.Nodup) (h : matchAgainst strict p s = some b) :
    p.asTemplate.fill b = s := by
  obtain ⟨a, hfit, hadmits, rfl⟩ := matchTree_sound h
  have hsingle : SingleValued a.entries := by
    cases strict with
    | true => exact Bindings.admits_empty.mp (hadmits rfl)
    | false =>
      refine singleValued_of_nodup ?_
      rw [hfit.names_entries]
      have hdistinct : p.vars.Pairwise (· ≠ ·) := hd rfl
      exact List.Pairwise.map _ (fun x y hne heq => hne (Token.text_injective heq)) hdistinct
  refine (hfit.fill_asTemplate hw (fun x v hv => ?_) fun x hx => ?_).2
  · -- the last value of a name is its only one
    exact Bindings.find?_overwrite_of_forall (Or.inl hv) fun w hw => hsingle hw hv
  · -- only variables are bound, and the literal is none
    rw [Bindings.find?_overwrite_of_notMem, Bindings.find?_empty]
    intro v hv
    exact hl x hx (hfit.mem_variables hv)

/-- Given back are `((c d) c a)`, matched strictly by `((x___ y_) x__ a)`, and `(c (d) a)`, matched
by `(x__ (y_) z___ a)`. -/
theorem fill_asTemplate_of_match_twice :
    let a : Expr := .atom (.letter 'a' rfl)
    let c : Expr := .atom (.letter 'c' rfl)
    let d : Expr := .atom (.letter 'd' rfl)
    let x : Span → Expr := .marker (some (.letter 'x' rfl))
    let y : Span → Expr := .marker (some (.letter 'y' rfl))
    let z : Span → Expr := .marker (some (.letter 'z' rfl))
    let strictly : Expr := .list [.list [x .zeroOrMore, y .one], x .oneOrMore, a]
    let loosely : Expr := .list [x .oneOrMore, .list [y .one], z .zeroOrMore, a]
    strictly.asTemplate.fill (.ofEntries [("x", .run [c]), ("y", .one d)]) =
        .list [.list [c, d], c, a] ∧
      loosely.asTemplate.fill (.ofEntries [("x", .run [c]), ("y", .one d), ("z", .run [])]) =
        .list [c, .list [d], a] :=
  ⟨@fill_asTemplate_of_match true _ _ _ (by decide) (by decide) (by decide) (by decide),
    @fill_asTemplate_of_match false _ _ _ (by decide) (by decide) (by decide) (by decide)⟩

end Expr

end TreeRules
