import Mathlib.Data.List.Forall2
import TreeRules.Proofs.Expr.Positions
import TreeRules.Proofs.Matching.Search

/-!
# What a match binds

A successful match binds the variables of its pattern and nothing else: candidates that were tried
and given up leave no trace. That a match comes from one assignment says this already
(`matchTree_sound`); what is left is to say what the values of an assignment look like.

* `Fits.pieceOf` — each value is a piece of the subject: one of its subtrees, or a run of
  consecutive children of one of its lists.
* `Fits.suits` — each value suits the place where its variable occurs in the pattern: only a run
  marker inside a list takes a run.

Where a name occurs more than once, its place among the names is that of the first occurrence, and
its value is that of the last one (`exists_find?_of_last`).
-/

namespace TreeRules

/-! ## Pieces of a tree -/

/-- The value is a piece of the tree: a subtree, or consecutive children of a list in it. -/
def Value.PieceOf (s : Expr) : Value → Prop
  | .one u => ∃ path, s.at? path = some u
  | .run es => ∃ path cs, s.at? path = some (.list cs) ∧ es <:+: cs
  | .vacant => False

/-- A piece of a child is a piece of the list. -/
theorem Value.PieceOf.of_child {v : Value} {c : Expr} {cs : List Expr} (h : v.PieceOf c)
    (hc : c ∈ cs) : v.PieceOf (.list cs) := by
  obtain ⟨i, hi⟩ := List.mem_iff_getElem?.mp hc
  have hbelow (path : List Nat) : (Expr.list cs).at? (i :: path) = c.at? path :=
    Expr.at?_cons_of_child hi path
  cases v with
  | one u =>
    obtain ⟨path, hpath⟩ := h
    exact ⟨i :: path, (hbelow path).trans hpath⟩
  | run es =>
    obtain ⟨path, ds, hpath, hes⟩ := h
    exact ⟨i :: path, ds, (hbelow path).trans hpath, hes⟩
  | vacant => exact h

namespace Expr

open Assignment

mutual

/-- **Every value of an assignment is a piece of the subject.** -/
theorem Fits.pieceOf {p e : Expr} {a : Assignment} (h : Fits p e a) {x : String} {v : Value}
    (hv : (x, v) ∈ a.entries) : v.PieceOf e := by
  match p with
  | .atom y =>
    rw [(fits_atom_iff.mp h).2] at hv
    cases hv
  | .list ps =>
    obtain ⟨es, rfl, hs⟩ := fits_list_iff.mp h
    exact FitsAll.pieceOf hs (List.suffix_refl es) hv
  | .marker none s =>
    rw [fits_marker_iff.mp h] at hv
    cases hv
  | .marker (some y) s =>
    rw [fits_marker_iff.mp h] at hv
    cases List.mem_singleton.mp hv
    exact ⟨[], at?_nil e⟩

/-- Patterns that line up with the last children of a list take pieces of that list. -/
theorem FitsAll.pieceOf {ps es cs : List Expr} {a : Assignment} (h : FitsAll ps es a)
    (hes : es <:+ cs) {x : String} {v : Value} (hv : (x, v) ∈ a.entries) :
    v.PieceOf (.list cs) := by
  match ps with
  | [] =>
    rw [(fitsAll_nil_iff.mp h).2] at hv
    cases hv
  | p :: ps =>
    cases hp : p.isRunMarker with
    | true =>
      obtain ⟨y, s, rfl, hs⟩ := isRunMarker_iff.mp hp
      obtain ⟨n, a', -, -, rfl, h'⟩ := (fitsAll_run_iff hs).mp h
      have hbehind : es.drop n <:+ cs := (List.drop_suffix n es).trans hes
      cases y with
      | none => exact FitsAll.pieceOf h' hbehind hv
      | some y =>
        rcases List.mem_cons.mp hv with heq | hv
        · cases heq
          exact ⟨[], cs, rfl, (List.take_prefix n es).isInfix.trans hes.isInfix⟩
        · exact FitsAll.pieceOf h' hbehind hv
    | false =>
      obtain ⟨e, es, a₁, a₂, rfl, rfl, h₁, h₂⟩ := (fitsAll_single_iff hp).mp h
      rw [entries_append, List.mem_append] at hv
      rcases hv with hv | hv
      · exact (Fits.pieceOf h₁ hv).of_child (hes.subset (List.mem_cons_self ..))
      · exact FitsAll.pieceOf h₂ ((List.suffix_cons e es).trans hes) hv

end

end Expr

/-! ## Occurrences of variables -/

/-- A variable at a place where it occurs in a pattern. -/
structure Occurrence where
  /-- the variable -/
  name : Token
  /-- the span it is written with there -/
  span : Span
  /-- does it stand inside a list there? -/
  inside : Bool

namespace Occurrence

/-- Only inside a list does a variable stand for a run, and there the span has to say so. -/
def TakesRun (o : Occurrence) : Prop := o.inside = true ∧ o.span ≠ .one

/-- The value is one that the variable can stand for at this place. -/
def Suits (o : Occurrence) (v : Value) : Prop :=
  (v.isRun = true ↔ o.TakesRun) ∧ (o.TakesRun → o.span = .oneOrMore → v ≠ .run [])

theorem suits_one {o : Occurrence} {e : Expr} (h : ¬ o.TakesRun) : o.Suits (.one e) :=
  ⟨iff_of_false Bool.false_ne_true h, fun ho => absurd ho h⟩

theorem suits_run {o : Occurrence} {es : List Expr} (h : o.TakesRun)
    (hne : o.span = .oneOrMore → es ≠ []) : o.Suits (.run es) := by
  refine ⟨iff_of_true rfl h, fun _ hspan heq => ?_⟩
  cases heq
  exact hne hspan rfl

end Occurrence

namespace Expr

open Assignment

mutual

/-- The variables of a pattern in pre-order, each at every place where it occurs; `inside` tells
whether the pattern stands in a list itself. -/
def occurrencesFrom (inside : Bool) : Expr → List Occurrence
  | .atom _ => []
  | .list cs => occurrencesAll cs
  | .marker x s => x.toList.map fun x => ⟨x, s, inside⟩

/-- The occurrences of variables in the children of a list. -/
def occurrencesAll : List Expr → List Occurrence
  | [] => []
  | c :: cs => occurrencesFrom true c ++ occurrencesAll cs

end

/-- The variables of a pattern in pre-order, each at every place where it occurs. -/
def occurrences (p : Expr) : List Occurrence := p.occurrencesFrom false

/-- The entry is one for this occurrence of a variable. -/
def EntryFor (e : String × Value) (o : Occurrence) : Prop := e.1 = o.name.text ∧ o.Suits e.2

mutual

/-- **Every value of an assignment suits the place where its variable occurs.** Inside a list the
run markers are not matched as single trees. -/
theorem Fits.suits {p e : Expr} {a : Assignment} {inside : Bool} (h : Fits p e a)
    (hp : inside = true → p.isRunMarker = false) :
    List.Forall₂ EntryFor a.entries (p.occurrencesFrom inside) := by
  match p with
  | .atom x =>
    rw [(fits_atom_iff.mp h).2, occurrencesFrom]
    exact .nil
  | .list ps =>
    obtain ⟨es, -, hs⟩ := fits_list_iff.mp h
    rw [occurrencesFrom]
    exact FitsAll.suits hs
  | .marker none s =>
    rw [fits_marker_iff.mp h, occurrencesFrom]
    exact .nil
  | .marker (some x) s =>
    rw [fits_marker_iff.mp h, occurrencesFrom]
    refine .cons ⟨rfl, Occurrence.suits_one fun ho => ?_⟩ .nil
    have hrun : (marker (some x) s).isRunMarker = true := isRunMarker_iff.mpr ⟨_, s, rfl, ho.2⟩
    rw [hp ho.1] at hrun
    cases hrun

/-- The values for the children of a list suit their places. -/
theorem FitsAll.suits {ps es : List Expr} {a : Assignment} (h : FitsAll ps es a) :
    List.Forall₂ EntryFor a.entries (occurrencesAll ps) := by
  match ps with
  | [] =>
    rw [(fitsAll_nil_iff.mp h).2, occurrencesAll]
    exact .nil
  | p :: ps =>
    rw [occurrencesAll]
    cases hp : p.isRunMarker with
    | true =>
      obtain ⟨x, s, rfl, hs⟩ := isRunMarker_iff.mp hp
      obtain ⟨n, a', hn, hlen, rfl, h'⟩ := (fitsAll_run_iff hs).mp h
      rw [occurrencesFrom]
      cases x with
      | none =>
        rw [entries_cons_none]
        exact FitsAll.suits h'
      | some x =>
        refine .cons ⟨rfl, Occurrence.suits_run ⟨rfl, hs⟩ fun hspan hnil => ?_⟩ (FitsAll.suits h')
        -- the shortest run of such a marker has one tree, and there are enough of them
        have hpos : 1 ≤ n := by
          cases hspan
          exact hn
        have hzero : (es.take n).length = 0 := by rw [hnil, List.length_nil]
        rw [List.length_take] at hzero
        omega
    | false =>
      obtain ⟨e, es, a₁, a₂, rfl, rfl, h₁, h₂⟩ := (fitsAll_single_iff hp).mp h
      rw [entries_append]
      exact List.rel_append (Fits.suits h₁ fun _ => hp) (FitsAll.suits h₂)

end

/-- The entries of an assignment stand side by side with the occurrences of the variables. -/
theorem Fits.suits_occurrences {p e : Expr} {a : Assignment} (h : Fits p e a) :
    List.Forall₂ EntryFor a.entries p.occurrences :=
  h.suits fun hinside => absurd hinside Bool.false_ne_true

/-- Of two lists side by side, what stands in the first has a partner in the second. -/
theorem exists_mem_of_forall₂ {α β : Type} {R : α → β → Prop} {as : List α} {bs : List β} {a : α}
    (h : List.Forall₂ R as bs) (ha : a ∈ as) : ∃ b ∈ bs, R a b := by
  induction h with
  | nil => cases ha
  | @cons a' b as bs hab hrest ih =>
    rcases List.mem_cons.mp ha with rfl | ha
    · exact ⟨b, List.mem_cons_self .., hab⟩
    · obtain ⟨b', hb', hR⟩ := ih ha
      exact ⟨b', List.mem_cons_of_mem _ hb', hR⟩

theorem names_of_forall₂ {vs : List (String × Value)} {os : List Occurrence}
    (h : List.Forall₂ EntryFor vs os) : vs.map Prod.fst = os.map fun o => o.name.text := by
  induction h with
  | nil => rfl
  | cons hentry _ ih => rw [List.map_cons, List.map_cons, hentry.1, ih]

/-- A name has the value that was written for its last occurrence. -/
theorem exists_find?_of_last {vs : List (String × Value)} {before after : List Occurrence}
    {o : Occurrence} (h : List.Forall₂ EntryFor vs (before ++ o :: after))
    (hlast : ∀ o' ∈ after, o'.name ≠ o.name) (b : Bindings) :
    ∃ v, (b.overwrite vs).find? o.name.text = some v ∧ o.Suits v := by
  induction before generalizing vs b with
  | nil =>
    obtain ⟨⟨x, v⟩, ws, ⟨rfl, hv⟩, hrest, rfl⟩ := List.forall₂_cons_right_iff.mp h
    refine ⟨v, ?_, hv⟩
    rw [Bindings.overwrite_cons, Bindings.find?_overwrite_of_notMem, Bindings.find?_insert_self]
    intro w hw
    obtain ⟨o', ho', hname, -⟩ := exists_mem_of_forall₂ hrest hw
    exact hlast o' ho' (Token.text_injective hname).symm
  | cons o' before ih =>
    obtain ⟨⟨x, v⟩, ws, -, hrest, rfl⟩ := List.forall₂_cons_right_iff.mp h
    exact ih hrest (b.insert x v)

/-! ## What is bound -/

/-- Every value of a match is a piece of the subject, and suits a place where its name occurs. -/
theorem pieceOf_of_match {strict : Bool} {p s : Expr} {b : Bindings} {x : String} {v : Value}
    (h : matchAgainst strict p s = some b) (hv : b.find? x = some v) :
    v.PieceOf s ∧ ∃ o ∈ p.occurrences, x = o.name.text ∧ o.Suits v := by
  obtain ⟨a, hfit, -, rfl⟩ := matchTree_sound h
  have hmem : (x, v) ∈ a.entries := Bindings.mem_of_find?_overwrite_empty hv
  exact ⟨hfit.pieceOf hmem, exists_mem_of_forall₂ hfit.suits_occurrences hmem⟩

/-- **A match binds exactly the variables of its pattern, and binds them to pieces of the subject.**
The names are the variables, each once, in the order of their first occurrences. Every value is a
subtree of the subject, or a run of consecutive children of one of its lists. Which of the two it is
depends on where the name occurs last: it is a run exactly if a run marker inside a list stands
there, and that run is not empty if the span asks for a tree. -/
theorem match_binds_pieces {strict : Bool} {p s : Expr} {b : Bindings}
    (h : matchAgainst strict p s = some b) :
    b.names = (p.occurrences.map fun o => o.name.text).eraseDups ∧
      (∀ x v, b.find? x = some v → v.PieceOf s) ∧
      ∀ before o after, p.occurrences = before ++ o :: after →
        (∀ o' ∈ after, o'.name ≠ o.name) →
        ∃ v, b.find? o.name.text = some v ∧ (v.isRun = true ↔ o.inside = true ∧ o.span ≠ .one) ∧
          (o.inside = true → o.span = .oneOrMore → v ≠ .run []) := by
  have hpieces : ∀ x v, b.find? x = some v → v.PieceOf s := fun x v hv =>
    (pieceOf_of_match h hv).1
  obtain ⟨a, hfit, -, rfl⟩ := matchTree_sound h
  have hsuits := hfit.suits_occurrences
  refine ⟨?_, hpieces, fun before o after hsplit hlast => ?_⟩
  · rw [← names_of_forall₂ hsuits]
    exact Bindings.names_overwrite_empty a.entries
  · rw [hsplit] at hsuits
    obtain ⟨v, hfind, hkind, hne⟩ := exists_find?_of_last hsuits hlast .empty
    refine ⟨v, hfind, hkind, fun hinside hspan => hne ⟨hinside, ?_⟩ hspan⟩
    rw [hspan]
    exact Span.noConfusion

/-- In `(x_ (y___ x__))`, matched against `(a (b c))`, the name `x` comes first, and its value is
the run that its second occurrence stands for. -/
theorem match_binds_pieces_in_list :
    let a : Expr := .atom (.letter 'a' rfl)
    let b : Expr := .atom (.letter 'b' rfl)
    let c : Expr := .atom (.letter 'c' rfl)
    let x : Token := .letter 'x' rfl
    let y : Token := .letter 'y' rfl
    let p : Expr := .list [.marker (some x) .one,
      .list [.marker (some y) .zeroOrMore, .marker (some x) .oneOrMore]]
    let s : Expr := .list [a, .list [b, c]]
    let r : Bindings := .ofEntries [("x", .run [b, c]), ("y", .run [])]
    matchAgainst false p s = some r ∧ r.names = ["x", "y"] ∧ (Value.run [b, c]).PieceOf s ∧
      p.occurrences = [⟨x, .one, true⟩, ⟨y, .zeroOrMore, true⟩] ++ ⟨x, .oneOrMore, true⟩ :: [] ∧
      ∃ v, r.find? "x" = some v ∧ v.isRun = true ∧ v ≠ .run [] := by
  intro a b c x y p s r
  have hmatch : matchAgainst false p s = some r := by decide
  obtain ⟨hnames, hpieces, hlast⟩ := match_binds_pieces hmatch
  obtain ⟨v, hfind, hkind, hne⟩ := hlast [⟨x, .one, true⟩, ⟨y, .zeroOrMore, true⟩]
    ⟨x, .oneOrMore, true⟩ [] rfl fun o' ho' => absurd ho' List.not_mem_nil
  refine ⟨hmatch, hnames.trans (by decide), hpieces "x" _ (by decide), rfl, v, hfind, ?_, ?_⟩
  · exact hkind.mpr ⟨rfl, by decide⟩
  · exact hne rfl rfl

end Expr

end TreeRules
