import TreeRules.Rule.Basic

/-!
# Traces: every pass of an application of a rule

A traced application answers, beside the result, the tree before and after each pass that changed
it. The steps of a trace are numbered from one and fit together: the first starts at the initial
tree, each further one where the step before ended, and the final tree is where the last one ended.

A trace can be shown in three styles: every step with the trees on both sides of it, the two ends
with the number of steps between them, or the chain of trees with the rule's name on every arrow.
-/

namespace TreeRules

/-- A pass that changed the tree. -/
structure Step where
  /-- the number of the pass, from one -/
  number : Int
  /-- the tree before the pass -/
  before : Expr
  /-- the tree after the pass -/
  after : Expr

/-- The text of a step. -/
def Step.render (s : Step) : String :=
  s!"pass {s.number}: " ++ s.before.render ++ " → " ++ s.after.render

/-- What happened when a rule was applied. -/
structure Trace where
  /-- the name of the rule -/
  ruleName : Option String
  /-- the tree it was applied to, once that is known -/
  initial : Option Expr
  /-- the result, once there is one -/
  final : Option Expr
  /-- the passes that changed the tree -/
  steps : List Step

/-- How a trace is shown. -/
inductive TraceStyle where
  /-- every step with both its trees -/
  | verbose
  /-- the two ends and the number of steps -/
  | compact
  /-- every tree, with the rule's name in between -/
  | chain
deriving DecidableEq

/-- The style of this name; what names none means `verbose`. -/
def TraceStyle.ofName (s : String) : TraceStyle :=
  if s = "compact" then .compact else if s = "chain" then .chain else .verbose

namespace Trace

/-- What arrows are labelled with. -/
def label (t : Trace) : String := (t.ruleName.filter (· != "")).getD "rule"

/-- The text of a tree that may not be known. -/
def endText (e : Option Expr) : String := e.elim "None" Expr.render

/-- The lines of a trace in the given style. -/
def lines (t : Trace) : TraceStyle → List String
  | .verbose =>
    ("Initial: " ++ endText t.initial) :: t.steps.map (fun s => "  " ++ s.render)
      ++ ["Final: " ++ endText t.final]
  | .compact =>
    [s!"{endText t.initial} --[{t.label} x{t.steps.length}]--> {endText t.final}"]
  | .chain =>
    endText t.initial :: t.steps.flatMap fun s => ["  --(" ++ t.label ++ ")-->", s.after.render]

/-- A trace in the given style. -/
def render (t : Trace) (style : TraceStyle) : String := "\n".intercalate (t.lines style)

end Trace

namespace Replacement

/-- Make passes until one finds nothing, at most `limit` of them, and number those that change the
tree, from `number` on. `taken` are the steps before, last first. -/
def iterateTraced (r : Replacement) (limit number : Nat) (taken : List Step) (e : Expr) :
    Option (Expr × List Step) :=
  match limit with
  | 0 => none
  | limit + 1 =>
    match r.pass e with
    | none => some (e, taken.reverse)
    | some e' => iterateTraced r limit (number + 1) (⟨number, e, e'⟩ :: taken) e'

end Replacement

namespace Rule

/-- The trace of an application that ended with `result` after these steps. -/
def traceOf (r : Rule) (e result : Expr) (steps : List Step) : Trace :=
  ⟨r.name, some e, some result, steps⟩

/-- The trace of an application that changed the tree in one step, if it changed it. -/
def traceOfChange (r : Rule) (e : Expr) : Option Expr → Trace
  | none => r.traceOf e e []
  | some e' => r.traceOf e e' [⟨1, e, e'⟩]

/-- Apply a rule and trace it. -/
def trace (r : Rule) (strategy : Strategy) (e : Expr) : Except FixpointError Trace :=
  match strategy with
  | .once => .ok (r.traceOfChange e (r.atRoot e))
  | .all => .ok (r.traceOfChange e (r.pass e))
  | .fixpoint =>
    if r.limit < 1 then .error (.badLimit r.limit)
    else
      match r.iterateTraced r.limit.toNat 1 [] e with
      | some (result, steps) => .ok (r.traceOf e result steps)
      | none => .error (.exhausted r.limit)

end Rule

end TreeRules
