import TreeRules.Proofs.Replacement.NormalForm
import TreeRules.Trace

/-!
# Tracing changes nothing and tells all

A rule that is traced makes the same passes as one that is not. Both fail for the same reason, or
end with the same tree; and the trace tells the passes one after another, numbered from one, each
from the tree that the one before it left (`Trace.Faithful`).

The search for a fixpoint records a step for every pass that changes the tree. `Linked` says what
the recorded steps are, without the search: each is one pass, and the next one goes on from where it
ended. The other two strategies make at most one pass, so they have at most one step.
-/

namespace TreeRules

variable {number : Nat} {e e' last : Expr} {steps : List Step}

/-- These steps are passes that lead from the first tree to the last one, with numbers from `number`
on. -/
inductive Linked (makePass : Expr → Option Expr) : Nat → Expr → List Step → Expr → Prop where
  /-- without a step the tree stays as it is -/
  | nil (number : Nat) (e : Expr) : Linked makePass number e [] e
  /-- a pass, and all further ones from where it ended -/
  | cons {number : Nat} {e e' last : Expr} {steps : List Step} (hpass : makePass e = some e')
      (hrest : Linked makePass (number + 1) e' steps last) :
      Linked makePass number e (⟨number, e, e'⟩ :: steps) last

namespace Linked

variable {makePass : Expr → Option Expr}

/-- The steps are numbered one by one. -/
theorem numbers (h : Linked makePass number e steps last) :
    steps.map Step.number = (List.range' number steps.length).map Int.ofNat := by
  induction h with
  | nil number e => rfl
  | cons hpass hrest ih =>
    rw [List.map_cons, ih, List.length_cons, List.range'_succ, List.map_cons]
    rfl

/-- Each step starts where the one before it ended; the first starts at the first tree, and the last
ends at the last one. -/
theorem trees (h : Linked makePass number e steps last) :
    steps.map Step.before ++ [last] = e :: steps.map Step.after := by
  induction h with
  | nil number e => rfl
  | cons hpass hrest ih => rw [List.map_cons, List.cons_append, ih, List.map_cons]

/-- Each step is one pass. -/
theorem passes (h : Linked makePass number e steps last) :
    ∀ s ∈ steps, makePass s.before = some s.after := by
  induction h with
  | nil number e =>
    intro s hs
    cases hs
  | cons hpass hrest ih => exact List.forall_mem_cons.mpr ⟨hpass, ih⟩

/-- There is no step exactly if the first pass would change nothing, provided that a pass over the
last tree does not. -/
theorem eq_nil_iff (h : Linked makePass number e steps last) (hlast : makePass last = none) :
    steps = [] ↔ makePass e = none := by
  cases h with
  | nil => exact ⟨fun _ => hlast, fun _ => rfl⟩
  | cons hpass hrest => simp [hpass]

/-- A pass by itself is a step with the number one. -/
theorem single (hpass : makePass e = some e') : Linked makePass 1 e [⟨1, e, e'⟩] e' :=
  .cons hpass (.nil 2 e')

end Linked

/-! ## The search for a fixpoint -/

namespace Replacement

/-- The traced search ends with the tree of the other one, and the steps it takes from here on are
fewer than the passes it may make. -/
theorem iterateTraced_spec (r : Replacement) (limit number done : Nat) (taken : List Step)
    (e : Expr) :
    (r.iterateTraced limit number taken e = none ∧ r.iterate limit done e = none) ∨
      ∃ last n steps, r.iterateTraced limit number taken e = some (last, taken.reverse ++ steps) ∧
        r.iterate limit done e = some (last, n) ∧ Linked r.pass number e steps last ∧
        steps.length < limit ∧ r.pass last = none := by
  induction limit generalizing number done taken e with
  | zero => exact .inl ⟨rfl, rfl⟩
  | succ limit ih =>
    rw [iterateTraced, iterate]
    cases hpass : r.pass e with
    | none =>
      refine .inr ⟨e, done, [], ?_, rfl, .nil number e, Nat.succ_pos limit, hpass⟩
      rw [List.append_nil]
    | some e' =>
      obtain ⟨htraced, hplain⟩ | ⟨last, n, steps, htraced, hplain, hlinked, hfew, hlast⟩ :=
        ih (number + 1) (done + 1) (⟨number, e, e'⟩ :: taken) e'
      · exact .inl ⟨htraced, hplain⟩
      · refine .inr ⟨last, n, ⟨number, e, e'⟩ :: steps, ?_, hplain, .cons hpass hlinked,
          Nat.succ_lt_succ hfew, hlast⟩
        rw [List.reverse_cons, List.append_assoc, List.singleton_append] at htraced
        exact htraced

end Replacement

/-! ## Traces -/

namespace Rule

/-- One pass of a strategy: at the root only, or over the whole tree. -/
def passOf (r : Rule) : Strategy → Expr → Option Expr
  | .once => r.atRoot
  | .all => r.pass
  | .fixpoint => r.pass

/-- A strategy finds nothing to replace: the root does not match, or nothing in the tree does. -/
def AtRest (r : Rule) : Strategy → Expr → Prop
  | .once, e => r.matches? e = none
  | .all, e => r.IsNormal e
  | .fixpoint, e => r.IsNormal e

/-- The most steps that a strategy can take. -/
def mostSteps (r : Rule) : Strategy → Int
  | .once => 1
  | .all => 1
  | .fixpoint => r.limit - 1

/-- A strategy is at rest where its pass changes nothing. -/
theorem passOf_eq_none_iff {r : Rule} {strategy : Strategy} :
    r.passOf strategy e = none ↔ r.AtRest strategy e := by
  cases strategy with
  | once => exact Option.map_eq_none_iff
  | all => exact Replacement.pass_eq_none_iff
  | fixpoint => exact Replacement.pass_eq_none_iff

end Rule

/-- The trace tells how the rule came from the tree to the result: the two are its ends, and its
steps are the passes in between. -/
structure Trace.Faithful (r : Rule) (strategy : Strategy) (e result : Expr) (t : Trace) : Prop where
  /-- it is a trace of this rule -/
  ruleName : t.ruleName = r.name
  /-- it starts with the tree -/
  initial : t.initial = some e
  /-- it ends with the result -/
  final : t.final = some result
  /-- the steps have the numbers 1, 2, 3, … -/
  numbers : t.steps.map Step.number = (List.range' 1 t.steps.length).map Int.ofNat
  /-- the first step starts at the tree, each further one where the one before it ended, and the
  last one ends at the result; without steps the tree is the result -/
  trees : t.steps.map Step.before ++ [result] = e :: t.steps.map Step.after
  /-- each step is one pass -/
  passes : ∀ s ∈ t.steps, r.passOf strategy s.before = some s.after
  /-- there are no more steps than the strategy can take -/
  length_le : (t.steps.length : Int) ≤ r.mostSteps strategy
  /-- there is none exactly if the strategy finds nothing to replace -/
  eq_nil_iff : t.steps = [] ↔ r.AtRest strategy e

namespace Rule

variable {r : Rule} {strategy : Strategy}

/-- Linked passes make a faithful trace, if they are not too many and are there if they have to. -/
theorem faithful_of_linked (hlinked : Linked (r.passOf strategy) 1 e steps last)
    (hfew : (steps.length : Int) ≤ r.mostSteps strategy)
    (hnil : steps = [] ↔ r.passOf strategy e = none) :
    (r.traceOf e last steps).Faithful r strategy e last where
  ruleName := rfl
  initial := rfl
  final := rfl
  numbers := hlinked.numbers
  trees := hlinked.trees
  passes := hlinked.passes
  length_le := hfew
  eq_nil_iff := hnil.trans passOf_eq_none_iff

/-- A single pass, be it successful or not, has a faithful trace. -/
theorem faithful_traceOfChange (r : Rule) (strategy : Strategy) (hmost : r.mostSteps strategy = 1)
    (e : Expr) :
    (r.traceOfChange e (r.passOf strategy e)).Faithful r strategy e
      ((r.passOf strategy e).getD e) := by
  cases hpass : r.passOf strategy e with
  | none =>
    refine faithful_of_linked (.nil 1 e) ?_ (iff_of_true rfl hpass)
    rw [hmost]
    decide
  | some e' =>
    refine faithful_of_linked (.single hpass) (Int.le_of_eq hmost.symm) ?_
    rw [hpass]
    simp

/-- **Tracing changes nothing and tells all.** A traced application fails with the same error as one
that is not traced, or it has the same result and a faithful trace. -/
theorem trace_faithful (r : Rule) (strategy : Strategy) (e : Expr) :
    (∃ err, r.trace strategy e = .error err ∧ r.simplify strategy e = .error err) ∨
      ∃ t result, r.trace strategy e = .ok t ∧ r.simplify strategy e = .ok result ∧
        t.Faithful r strategy e result := by
  cases strategy with
  | once => exact .inr ⟨_, _, rfl, rfl, r.faithful_traceOfChange .once rfl e⟩
  | all => exact .inr ⟨_, _, rfl, rfl, r.faithful_traceOfChange .all rfl e⟩
  | fixpoint =>
    rw [trace, simplify, Replacement.normalize]
    by_cases hlimit : r.limit < 1
    · exact .inl ⟨.badLimit r.limit, if_pos hlimit, if_pos hlimit⟩
    · simp only [if_neg hlimit]
      obtain ⟨htraced, hplain⟩ | ⟨last, n, steps, htraced, hplain, hlinked, hfew, hlast⟩ :=
        r.iterateTraced_spec r.limit.toNat 1 0 [] e
      · rw [htraced, hplain]
        exact .inl ⟨.exhausted r.limit, rfl, rfl⟩
      · rw [List.reverse_nil, List.nil_append] at htraced
        rw [htraced, hplain]
        refine .inr ⟨_, last, rfl, rfl, faithful_of_linked hlinked ?_ (hlinked.eq_nil_iff hlast)⟩
        rw [mostSteps]
        omega

end Rule

end TreeRules
