import Mathlib.Data.List.Forall2
import TreeRules.Proofs.Matching.Assignment

/-!
# Other names for the variables of a pattern

What the variables of a pattern are called does not matter to a match, as long as different ones
keep different names. Literal atoms are no names: a variable may get the name of one.

A match of the pattern and a match of the renamed one go through the same search side by side. At
every point of it their bindings have the same values in the same order, those of the second under
the new names (`Bindings.Renamed`). Both ask and change their bindings by name only, and a name is
bound in one exactly if the new name is bound in the other (`Renamed.find?`, `Renamed.insert`). So
both have a conflict at the same places, and go on or give up together (`matchTree_renamed`).
-/

namespace TreeRules

variable {f : Token → Token} {xs : List Token} {x : Token} {v : Value} {strict : Bool}

/-! ## Options side by side -/

section SideBySide

variable {α β γ δ ι : Type} {R : α → β → Prop} {S : γ → δ → Prop}

/-- They fail together. -/
theorem eq_none_of_rel {o : Option β} (h : Option.Rel R none o) : o = none := by
  cases h
  rfl

/-- They succeed together. -/
theorem exists_of_rel_some {a : α} {o : Option β} (h : Option.Rel R (some a) o) :
    ∃ b, o = some b ∧ R a b := by
  cases h with
  | some hab => exact ⟨_, rfl, hab⟩

theorem rel_bind {o : Option α} {o' : Option β} {g : α → Option γ} {g' : β → Option δ}
    (h : Option.Rel R o o') (hg : ∀ a b, R a b → Option.Rel S (g a) (g' b)) :
    Option.Rel S (o.bind g) (o'.bind g') := by
  cases h with
  | none => exact .none
  | some hab => exact hg _ _ hab

/-- The first success of one search and the first success of the other stand at the same place. -/
theorem rel_findSome? {g : ι → Option α} {g' : ι → Option β} {is : List ι}
    (h : ∀ i ∈ is, Option.Rel R (g i) (g' i)) :
    Option.Rel R (is.findSome? g) (is.findSome? g') := by
  induction is with
  | nil => exact .none
  | cons i is ih =>
    rw [List.forall_mem_cons] at h
    rw [List.findSome?_cons, List.findSome?_cons]
    obtain ⟨hi, his⟩ := h
    generalize g i = o at hi
    generalize g' i = o' at hi
    cases hi with
    | none => exact ih his
    | some hab => exact .some hab

end SideBySide

/-! ## Bindings -/

/-- Different variables get different texts. -/
theorem text_eq_text_iff (hf : ∀ x ∈ xs, ∀ y ∈ xs, f x = f y → x = y) {y : Token} (hx : x ∈ xs)
    (hy : y ∈ xs) : (f x).text = (f y).text ↔ x.text = y.text := by
  constructor
  · intro h
    rw [hf x hx y hy (Token.text_injective h)]
  · intro h
    rw [Token.text_injective h]

/-- The second entry has the value of the first one, under the new name. -/
def RenamedEntry (f : Token → Token) (xs : List Token) (e e' : String × Value) : Prop :=
  ∃ x ∈ xs, e.1 = x.text ∧ e'.1 = (f x).text ∧ e'.2 = e.2

section Entries

variable {es es' : List (String × Value)}

/-- A new name has the value of the old one. -/
theorem lookup_renamed (h : List.Forall₂ (RenamedEntry f xs) es es')
    (hf : ∀ x ∈ xs, ∀ y ∈ xs, f x = f y → x = y) (hx : x ∈ xs) :
    es'.lookup (f x).text = es.lookup x.text := by
  induction h with
  | nil => rfl
  | @cons e e' es es' hentry hrest ih =>
    obtain ⟨n, w⟩ := e
    obtain ⟨n', w'⟩ := e'
    obtain ⟨y, hy, rfl, rfl, rfl⟩ := hentry
    have hsame : ((f x).text == (f y).text) = (x.text == y.text) := by
      rw [Bool.eq_iff_iff, beq_iff_eq, beq_iff_eq]
      exact text_eq_text_iff hf hx hy
    rw [List.lookup_cons, List.lookup_cons, hsame, ih]

/-- What is written for a name and for its new name stands at the same place. -/
theorem putEntry_renamed (h : List.Forall₂ (RenamedEntry f xs) es es')
    (hf : ∀ x ∈ xs, ∀ y ∈ xs, f x = f y → x = y) (hx : x ∈ xs) (v : Value) :
    List.Forall₂ (RenamedEntry f xs) (putEntry x.text v es) (putEntry (f x).text v es') := by
  induction h with
  | nil => exact .cons ⟨x, hx, rfl, rfl, rfl⟩ .nil
  | @cons e e' es es' hentry hrest ih =>
    obtain ⟨n, w⟩ := e
    obtain ⟨n', w'⟩ := e'
    obtain ⟨y, hy, rfl, rfl, rfl⟩ := hentry
    rw [putEntry, putEntry]
    by_cases heq : y.text = x.text
    · rw [if_pos heq, if_pos ((text_eq_text_iff hf hy hx).mpr heq)]
      exact .cons ⟨y, hy, rfl, rfl, rfl⟩ hrest
    · rw [if_neg heq, if_neg fun h => heq ((text_eq_text_iff hf hy hx).mp h)]
      exact .cons ⟨y, hy, rfl, rfl, rfl⟩ ih

/-- A token that is none of the variables is no name in the first entries. -/
theorem lookup_eq_none_of_notMem (h : List.Forall₂ (RenamedEntry f xs) es es') (hx : x ∉ xs) :
    es.lookup x.text = none := by
  induction h with
  | nil => rfl
  | @cons e e' es es' hentry hrest ih =>
    obtain ⟨n, w⟩ := e
    obtain ⟨y, hy, rfl, -, -⟩ := hentry
    have hne : (x.text == y.text) = false := by
      rw [beq_eq_false_iff_ne]
      intro heq
      exact hx (Token.text_injective heq ▸ hy)
    rw [List.lookup_cons, hne]
    exact ih

/-- A token that is none of the new names is no name in the second entries. -/
theorem lookup_eq_none_of_fresh (h : List.Forall₂ (RenamedEntry f xs) es es')
    (hx : ∀ y ∈ xs, f y ≠ x) : es'.lookup x.text = none := by
  induction h with
  | nil => rfl
  | @cons e e' es es' hentry hrest ih =>
    obtain ⟨n', w'⟩ := e'
    obtain ⟨y, hy, -, rfl, -⟩ := hentry
    have hne : (x.text == (f y).text) = false := by
      rw [beq_eq_false_iff_ne]
      intro heq
      exact hx y hy (Token.text_injective heq).symm
    rw [List.lookup_cons, hne]
    exact ih

end Entries

namespace Bindings

/-- Both have the same values in the same order, the second under the new names. The names of the
first are among these variables. -/
def Renamed (f : Token → Token) (xs : List Token) (b b' : Bindings) : Prop :=
  List.Forall₂ (RenamedEntry f xs) b.entries b'.entries

theorem renamed_empty (f : Token → Token) (xs : List Token) : Renamed f xs empty empty :=
  List.Forall₂.nil

namespace Renamed

variable {b b' : Bindings}

theorem find? (h : Renamed f xs b b') (hf : ∀ x ∈ xs, ∀ y ∈ xs, f x = f y → x = y)
    (hx : x ∈ xs) : b'.find? (f x).text = b.find? x.text :=
  lookup_renamed h hf hx

theorem insert (h : Renamed f xs b b') (hf : ∀ x ∈ xs, ∀ y ∈ xs, f x = f y → x = y)
    (hx : x ∈ xs) (v : Value) : Renamed f xs (b.insert x.text v) (b'.insert (f x).text v) :=
  putEntry_renamed h hf hx v

/-- Binding a name again is a conflict for both or for neither. -/
theorem extend? (h : Renamed f xs b b') (hf : ∀ x ∈ xs, ∀ y ∈ xs, f x = f y → x = y)
    (hx : x ∈ xs) (strict : Bool) (v : Value) :
    Option.Rel (Renamed f xs) (b.extend? strict x.text v) (b'.extend? strict (f x).text v) := by
  rw [Bindings.extend?, Bindings.extend?, h.find? hf hx]
  split
  · exact .none
  · exact .some (h.insert hf hx v)

theorem find?_eq_none_of_notMem (h : Renamed f xs b b') (hx : x ∉ xs) : b.find? x.text = none :=
  lookup_eq_none_of_notMem h hx

theorem find?_eq_none_of_fresh (h : Renamed f xs b b') (hx : ∀ y ∈ xs, f y ≠ x) :
    b'.find? x.text = none :=
  lookup_eq_none_of_fresh h hx

end Renamed

end Bindings

/-! ## Patterns -/

namespace Expr

mutual

/-- The pattern with new names for its variables. -/
def renameVars (f : Token → Token) : Expr → Expr
  | .atom x => .atom x
  | .list cs => .list (renameVarsAll f cs)
  | .marker x s => .marker (x.map f) s

/-- The patterns with new names for their variables. -/
def renameVarsAll (f : Token → Token) : List Expr → List Expr
  | [] => []
  | e :: es => renameVars f e :: renameVarsAll f es

end

/-- A renamed pattern takes as many children as before. -/
theorem isRunMarker_renameVars (f : Token → Token) (p : Expr) :
    (p.renameVars f).isRunMarker = p.isRunMarker := by
  rcases p with _ | _ | ⟨x, _ | _ | _⟩ <;> rw [renameVars] <;> rfl

theorem isNullable_renameVars (f : Token → Token) (p : Expr) :
    (p.renameVars f).isNullable = p.isNullable := by
  rcases p with _ | _ | ⟨x, _ | _ | _⟩ <;> rw [renameVars] <;> rfl

theorem demand_renameVarsAll (f : Token → Token) (ps : List Expr) :
    demand (renameVarsAll f ps) = demand ps := by
  induction ps with
  | nil => rfl
  | cons p ps ih =>
    rw [renameVarsAll, demand_cons, ih, demand_cons, shortest, shortest, isNullable_renameVars]

/-- The same lengths are tried for the run of a renamed marker. -/
theorem runLengths_renameVars (f : Token → Token) (p : Expr) (ps : List Expr) (available : Nat) :
    runLengths (p.renameVars f) (renameVarsAll f ps) available = runLengths p ps available := by
  rw [runLengths, runLengths, demand_renameVarsAll, shortest, shortest, isNullable_renameVars]

/-! ## Matching -/

variable {b b' : Bindings}

theorem bindRun_renamed (hf : ∀ x ∈ xs, ∀ y ∈ xs, f x = f y → x = y)
    {p : Expr} (hp : ∀ x ∈ p.vars, x ∈ xs) (es : List Expr) (h : b.Renamed f xs b') :
    Option.Rel (Bindings.Renamed f xs) (bindRun strict p es b)
      (bindRun strict (p.renameVars f) es b') := by
  rcases p with x | cs | ⟨_ | x, s⟩
  · exact .some h
  · rw [renameVars]
    exact .some h
  · exact .some h
  · exact h.extend? hf (hp x (List.mem_singleton_self x)) strict (.run es)

mutual

/-- **A renamed pattern matches alike**: whenever the pattern does, with the same values. -/
theorem matchTree_renamed (hf : ∀ x ∈ xs, ∀ y ∈ xs, f x = f y → x = y) {p : Expr}
    (hp : ∀ x ∈ p.vars, x ∈ xs) (e : Expr) {b b' : Bindings} (h : b.Renamed f xs b') :
    Option.Rel (Bindings.Renamed f xs) (matchTree strict p e b)
      (matchTree strict (p.renameVars f) e b') := by
  match p, e with
  | .atom x, e =>
    rw [renameVars, matchTree_atom, matchTree_atom]
    split
    · exact .some h
    · exact .none
  | .marker none s, e =>
    rw [renameVars, Option.map_none, matchTree_wildcard, matchTree_wildcard]
    exact .some h
  | .marker (some x) s, e =>
    rw [renameVars, Option.map_some, matchTree_variable, matchTree_variable]
    exact h.extend? hf (hp x (List.mem_singleton_self x)) strict (.one e)
  | .list ps, .list es =>
    rw [renameVars, matchTree_list, matchTree_list]
    exact matchChildren_renamed hf hp es h
  | .list ps, .atom y =>
    rw [renameVars, matchTree_list_of_not_isList rfl, matchTree_list_of_not_isList rfl]
    exact .none
  | .list ps, .marker y s =>
    rw [renameVars, matchTree_list_of_not_isList rfl, matchTree_list_of_not_isList rfl]
    exact .none

/-- Renamed patterns match children alike. -/
theorem matchChildren_renamed (hf : ∀ x ∈ xs, ∀ y ∈ xs, f x = f y → x = y) {ps : List Expr}
    (hps : ∀ x ∈ varsAll ps, x ∈ xs) (es : List Expr) {b b' : Bindings} (h : b.Renamed f xs b') :
    Option.Rel (Bindings.Renamed f xs) (matchChildren strict ps es b)
      (matchChildren strict (renameVarsAll f ps) es b') := by
  match ps with
  | [] =>
    rw [renameVarsAll, matchChildren_nil, matchChildren_nil]
    split
    · exact .some h
    · exact .none
  | p :: ps =>
    have hp : ∀ x ∈ p.vars, x ∈ xs := fun x hx => hps x (List.mem_append_left _ hx)
    have hrest : ∀ x ∈ varsAll ps, x ∈ xs := fun x hx => hps x (List.mem_append_right _ hx)
    have hkind := isRunMarker_renameVars f p
    rw [renameVarsAll]
    cases hrun : p.isRunMarker with
    | true =>
      -- the same lengths are tried, each with the same outcome
      rw [matchChildren_run hrun, matchChildren_run (hkind.trans hrun), runLengths_renameVars]
      refine rel_findSome? fun n hn => ?_
      refine rel_bind (bindRun_renamed hf hp (es.take n) h) fun c c' hc => ?_
      exact matchChildren_renamed hf hrest (es.drop n) hc
    | false =>
      cases es with
      | nil =>
        rw [matchChildren_single_nil hrun, matchChildren_single_nil (hkind.trans hrun)]
        exact .none
      | cons e es =>
        rw [matchChildren_single hrun, matchChildren_single (hkind.trans hrun)]
        refine rel_bind (matchTree_renamed hf hp e h) fun c c' hc => ?_
        exact matchChildren_renamed hf hrest es hc

end

/-- A match of the renamed pattern succeeds exactly if one of the pattern does, and has the same
values in the same order under the new names. -/
theorem matchAgainst_renamed {p : Expr} (hf : ∀ x ∈ p.vars, ∀ y ∈ p.vars, f x = f y → x = y)
    (strict : Bool) (s : Expr) :
    Option.Rel (Bindings.Renamed f p.vars) (matchAgainst strict p s)
      (matchAgainst strict (p.renameVars f) s) :=
  matchTree_renamed hf (fun _ hx => hx) s (Bindings.renamed_empty f p.vars)

end Expr

end TreeRules
