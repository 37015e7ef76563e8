import TreeRules.Proofs.Matching.Search

/-!
# Pruning changes nothing

A run marker does not try the lengths that leave too few children for the patterns behind it. Here
is the same search with the lengths to try as a parameter (`searchTree`). With the pruned lengths it
is matching; and it is still matching with any others that go on behind the pruned ones, as long as
what they go on with is hopeless (`GoesOn`). Hopeless is a length that leaves fewer children than
the patterns behind the run demand: whatever such patterns matched, they would have lined up with
children that are not there (`matchChildren_eq_none_of_lt`).

So a run marker may as well try every length up to all of the children that are left. The further
ones come last, and none of them has an answer (`pruning_changes_nothing`).
-/

namespace TreeRules

namespace Expr

/-- The lengths that a run marker tries in order, given the marker, the patterns behind it and the
number of children left. -/
abbrev Lengths := Expr → List Expr → Nat → List Nat

mutual

/-- Match one tree, with these lengths to try for the run markers in it. -/
def searchTree (lengths : Lengths) (strict : Bool) (pattern subject : Expr) (b : Bindings) :
    Option Bindings :=
  match pattern, subject with
  | .marker none _, _ => some b
  | .marker (some x) _, e => b.extend? strict x.text (.one e)
  | .atom x, e => if e = .atom x then some b else none
  | .list ps, .list es => searchChildren lengths strict ps es b
  | .list _, _ => none

/-- Match all of the trees, in order, with these lengths to try for the run markers. -/
def searchChildren (lengths : Lengths) (strict : Bool) (patterns subjects : List Expr)
    (b : Bindings) : Option Bindings :=
  match patterns with
  | [] => if subjects.isEmpty then some b else none
  | p :: ps =>
    if p.isRunMarker then
      (lengths p ps subjects.length).findSome? fun n =>
        (bindRun strict p (subjects.take n) b).bind fun b =>
          searchChildren lengths strict ps (subjects.drop n) b
    else
      match subjects with
      | [] => none
      | e :: es =>
        (searchTree lengths strict p e b).bind fun b => searchChildren lengths strict ps es b

end

/-- Every length, from the shortest that the span of the marker allows up to all that are left. -/
def everyLength : Lengths := fun p _ available =>
  List.range' p.shortest (available + 1 - p.shortest)

variable {lengths : Lengths} {strict : Bool} {ps es : List Expr} {b : Bindings}

/-! ## Hopeless lengths -/

/-- With fewer children than they demand, patterns do not match. -/
theorem matchChildren_eq_none_of_lt (h : es.length < demand ps) :
    matchChildren strict ps es b = none := by
  cases hmatch : matchChildren strict ps es b with
  | none => rfl
  | some b' =>
    obtain ⟨a, hfits, -⟩ := matchChildren_sound hmatch
    have hdemand := hfits.demand_le
    omega

/-- The lengths are the pruned ones, perhaps with others behind them. These are no more than there
are children, but they leave too few for the patterns behind the run. -/
def GoesOn (lengths : Lengths) : Prop :=
  ∀ p ps k, ∃ more, lengths p ps k = runLengths p ps k ++ more ∧
    ∀ n ∈ more, n ≤ k ∧ k < n + demand ps

theorem goesOn_runLengths : GoesOn runLengths :=
  fun _ _ _ => ⟨[], (List.append_nil _).symm, fun _ hn => absurd hn List.not_mem_nil⟩

/-- Every length that pruning cuts off is hopeless, and comes behind all that it keeps. -/
theorem goesOn_everyLength : GoesOn everyLength := by
  intro p ps k
  let kept := k + 1 - demand ps - p.shortest
  refine ⟨List.range' (p.shortest + kept) (k + 1 - p.shortest - kept), ?_, fun n hn => ?_⟩
  · have hjoin : List.range' p.shortest kept ++
          List.range' (p.shortest + 1 * kept) (k + 1 - p.shortest - kept) =
        List.range' p.shortest (kept + (k + 1 - p.shortest - kept)) := List.range'_append
    have hlength : kept + (k + 1 - p.shortest - kept) = k + 1 - p.shortest := by omega
    rw [Nat.one_mul, hlength] at hjoin
    exact hjoin.symm
  · rw [List.mem_range'_1] at hn
    omega

/-! ## The search with more lengths -/

mutual

/-- Further lengths that are hopeless change nothing for a tree. -/
theorem searchTree_eq_matchTree (h : GoesOn lengths) (strict : Bool) (p e : Expr) (b : Bindings) :
    searchTree lengths strict p e b = matchTree strict p e b := by
  match p, e with
  | .marker none s, e => rw [searchTree, matchTree_wildcard]
  | .marker (some x) s, e => rw [searchTree, matchTree_variable]
  | .atom x, e => rw [searchTree, matchTree_atom]
  | .list ps, .list es =>
    rw [searchTree, matchTree_list]
    exact searchChildren_eq_matchChildren h strict ps es b
  | .list ps, .atom y =>
    rw [matchTree_list_of_not_isList rfl, searchTree]
    rintro _ ⟨⟩
  | .list ps, .marker y s =>
    rw [matchTree_list_of_not_isList rfl, searchTree]
    rintro _ ⟨⟩

/-- Further lengths that are hopeless change nothing for children. -/
theorem searchChildren_eq_matchChildren (h : GoesOn lengths) (strict : Bool) (ps es : List Expr)
    (b : Bindings) : searchChildren lengths strict ps es b = matchChildren strict ps es b := by
  match ps with
  | [] => rw [searchChildren, matchChildren_nil]
  | p :: ps =>
    have ih : ∀ es b, searchChildren lengths strict ps es b = matchChildren strict ps es b :=
      fun es b => searchChildren_eq_matchChildren h strict ps es b
    rw [searchChildren.eq_def]
    cases hp : p.isRunMarker with
    | true =>
      obtain ⟨more, hlengths, hmore⟩ := h p ps es.length
      simp only [ih, hp, if_true]
      rw [hlengths, List.findSome?_append, matchChildren_run hp]
      -- behind a hopeless run there is no match, whatever the run is bound to
      have hnone : more.findSome? (fun n => (bindRun strict p (es.take n) b).bind fun b =>
          matchChildren strict ps (es.drop n) b) = none := by
        rw [List.findSome?_eq_none_iff]
        intro n hn
        obtain ⟨hle, hlt⟩ := hmore n hn
        refine Option.bind_eq_none_iff.mpr fun b' _ => matchChildren_eq_none_of_lt ?_
        rw [List.length_drop]
        omega
      rw [hnone, Option.or_none]
    | false =>
      cases es with
      | nil => simp [hp, matchChildren_single_nil hp]
      | cons e es =>
        rw [matchChildren_single hp]
        simp only [hp, Bool.false_eq_true, if_false, ih, searchTree_eq_matchTree h strict p e b]

end

/-- **Pruning changes nothing.** Behind any places in the patterns and the subjects, from any
bindings, strictly or not: the search that tries every length for every run has the same answer as
matching, which is the same search with the pruned lengths. -/
theorem pruning_changes_nothing (strict : Bool) (ps es : List Expr) (i j : Nat) (b : Bindings) :
    searchChildren everyLength strict (ps.drop i) (es.drop j) b =
        matchChildren strict (ps.drop i) (es.drop j) b ∧
      searchChildren runLengths strict (ps.drop i) (es.drop j) b =
        matchChildren strict (ps.drop i) (es.drop j) b :=
  ⟨searchChildren_eq_matchChildren goesOn_everyLength strict _ _ b,
    searchChildren_eq_matchChildren goesOn_runLengths strict _ _ b⟩

end Expr

end TreeRules
