import TreeRules.Session.Command

/-!
# Sessions

A session is a rule, if one has been set, and the settings it is applied with. Lines are executed
one after another, and each is one of four things: nothing (blank, or a comment behind `#`), a
command (behind `:`), a rule, which becomes the session's rule, or trees, to which the session's
rule is applied.

A line either changes the session and has an answer, or fails and leaves every setting as it was.
The session's limit and strictness, and not those that a rule carries, decide how the rule is
applied: it is given them first. A session may start without a strategy; until a command names one,
no tree has a result.
-/

namespace TreeRules

/-- A rule and the settings it is applied with. -/
structure Session where
  /-- the rule, once one has been set -/
  rule : Option Rule := none
  /-- how the rule is applied, if that is known -/
  strategy : Option Strategy := some .fixpoint
  /-- the most passes to a fixpoint -/
  limit : Int := defaultLimit
  /-- must repeated variables find equal values? -/
  strict : Bool := false
  /-- are all passes shown? -/
  tracing : Bool := false
  /-- are further lines wanted? -/
  running : Bool := true

/-- The answer to a line. -/
structure Answer where
  /-- the text to show, if there is one -/
  text : Option String
  /-- is it made of trees the rule was applied to? -/
  isResult : Bool
deriving DecidableEq

/-- What a line asks for. -/
inductive Request where
  /-- nothing -/
  | nothing
  /-- obey a command -/
  | command (c : Command)
  /-- apply the rule to the trees in a text -/
  | trees (text : List Char)

/-- Read a line as far as can be done without a session. -/
def Request.ofLine (line : List Char) : Except Failure Request :=
  match Text.trim line with
  | [] => .ok .nothing
  | '#' :: _ => .ok .nothing
  | ':' :: rest => (Command.ofLine (':' :: rest)).map .command
  | cs => if isRuleLine cs then (Command.setRule cs).map .command else .ok (.trees cs)

namespace Session

/-- A session in which nothing has been said. -/
def fresh : Session := {}

/-- A setting that is on or off. -/
def onOff (b : Bool) : String := if b then "on" else "off"

/-- What the help command shows. -/
def helpText : String := "\n".intercalate [
  "ERS REPL Commands:",
  "  :help              Show this help",
  "  :rule RULE         Set the rule",
  "  :show              Show the current rule and settings",
  "  :strategy NAME     Set strategy (once, all, fixpoint)",
  "  :limit N           Set the fixpoint iteration limit",
  "  :strict on|off     Require repeated variables to bind equal values",
  "  :trace on|off      Toggle tracing",
  "  :quit              Exit",
  "",
  "Syntax:",
  "  pattern => template                 Set the rule",
  "  @name: pattern => template          Named rule",
  "  @name \"desc\": pattern => template   Named rule with description",
  "  (expression)                        Rewrite an expression",
  "",
  "Patterns:",
  "  _  __  ___        any one / one or more / zero or more elements",
  "  x_ x__ x___       the same, bound to x for use in the template",
  ""]

/-- The rule and the settings in words. -/
def settings (s : Session) : String := "\n".intercalate [
  "Rule: " ++ s.rule.elim "(no rule)" Rule.render,
  "Strategy: " ++ Strategy.nameOf s.strategy,
  s!"Limit: {s.limit}",
  "Strict: " ++ onOff s.strict,
  "Trace: " ++ onOff s.tracing]

/-- Obey a command: the session afterwards, and what is said about it. -/
def obey (s : Session) : Command → Session × Option String
  | .help => (s, some helpText)
  | .quit => ({ s with running := false }, none)
  | .rule r => ({ s with rule := some r }, some ("Rule set: " ++ r.render))
  | .showSettings => (s, some s.settings)
  | .strategy strategy =>
    ({ s with strategy := some strategy }, some ("Strategy set to: " ++ strategy.name))
  | .limit limit => ({ s with limit }, some s!"Limit set to: {limit}")
  | .strict switch =>
    let strict := switch.apply s.strict
    ({ s with strict }, some ("Strict matching " ++ if strict then "enabled" else "disabled"))
  | .trace switch =>
    let tracing := switch.apply s.tracing
    ({ s with tracing }, some ("Tracing " ++ if tracing then "enabled" else "disabled"))

/-- A rule with the limit and the strictness of the session. -/
def configure (s : Session) (r : Rule) : Rule := { r with limit := s.limit, strict := s.strict }

/-- Apply the rule to a tree: its result, or every tree on the way to it. -/
def outputOf (s : Session) (r : Rule) (e : Expr) : Except Failure String :=
  match s.strategy with
  | none => .error .noStrategy
  | some strategy =>
    if s.tracing then ((r.trace strategy e).map (·.render .chain)).mapError .fixpoint
    else ((r.simplify strategy e).map Expr.render).mapError .fixpoint

/-- Apply the rule to trees in order, up to the first that has no result. -/
def outputsOf (s : Session) (r : Rule) : List Expr → Except Failure (List String)
  | [] => .ok []
  | e :: es =>
    match s.outputOf r e with
    | .error err => .error err
    | .ok text => (outputsOf s r es).map (text :: ·)

/-- Apply a rule to the trees in a text: their outputs, one under another. -/
def simplifyWith (s : Session) (r : Rule) (text : List Char) : Except Failure String :=
  match Expr.parseAllChars text with
  | .error e => .error (.read e)
  | .ok es => (s.outputsOf r es).map ("\n".intercalate ·)

/-- Apply the session's rule to the trees in a text; it is given the session's limit and
strictness for good. -/
def simplify (s : Session) (text : List Char) : Session × Except Failure String :=
  match s.rule with
  | none => (s, .error (.command .noRuleSet))
  | some r =>
    let r := s.configure r
    ({ s with rule := some r }, s.simplifyWith r text)

/-- Read a command and obey it. -/
def command (s : Session) (line : List Char) : Session × Except Failure (Option String) :=
  match Command.ofLine line with
  | .error e => (s, .error e)
  | .ok c =>
    let (s, said) := s.obey c
    (s, .ok said)

/-- Set the rule that a text holds. -/
def setRule (s : Session) (text : List Char) : Session × Except Failure (Option String) :=
  match Command.setRule text with
  | .error e => (s, .error e)
  | .ok c =>
    let (s, said) := s.obey c
    (s, .ok said)

/-- Execute a line. -/
def execute (s : Session) (line : List Char) : Session × Except Failure Answer :=
  match Request.ofLine line with
  | .error e => (s, .error e)
  | .ok .nothing => (s, .ok ⟨none, false⟩)
  | .ok (.command c) =>
    let (s, said) := s.obey c
    (s, .ok ⟨said, false⟩)
  | .ok (.trees text) =>
    let (s, result) := s.simplify text
    (s, result.map fun output => ⟨some output, true⟩)

/-- How a failure is shown to whoever typed the line. -/
def errorText (e : Failure) : String := "Error: " ++ e.message

/-- Execute a line, and show a failure like an answer. -/
def process (s : Session) (line : List Char) : Session × Option String :=
  match s.execute line with
  | (s, .ok answer) => (s, answer.text)
  | (s, .error e) => (s, some (errorText e))

/-- What applying a rule to trees in order tells when it is watched. -/
def notesOfAll (strategy : Strategy) (r : Rule) : List Expr → List FixpointNote
  | [] => []
  | e :: es =>
    r.notes strategy e ++
      match r.simplify strategy e with
      | .ok _ => notesOfAll strategy r es
      | .error _ => []

/-- What executing a line tells when it is watched. -/
def notes (s : Session) (line : List Char) : List FixpointNote :=
  match Request.ofLine line, s.rule, s.strategy with
  | .ok (.trees text), some r, some strategy =>
    match Expr.parseAllChars text with
    | .ok es => notesOfAll strategy (s.configure r) es
    | .error _ => []
  | _, _, _ => []

end Session

end TreeRules
