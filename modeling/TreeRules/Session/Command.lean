import TreeRules.Rule.Line
import TreeRules.Text.Integer
import TreeRules.Text.LowerCase
import TreeRules.Trace

/-!
# Commands

A command is a line with a mark in front, a name in any case, and perhaps an argument. Reading a
command settles everything that can be wrong with it, so that obeying one cannot fail: a line either
is a command, with its rule read and its number in range, or an error that has changed nothing.
-/

namespace TreeRules

/-- What is wrong with a command, or with trees that come too early. -/
inductive CommandError where
  /-- there is only the mark -/
  | noName
  /-- no command has this name -/
  | unknown (name : String)
  /-- a rule is to be set, and none is given -/
  | missingRule
  /-- no strategy has the given name -/
  | unknownStrategy
  /-- the limit is no number -/
  | noNumber
  /-- the limit leaves no pass -/
  | limitTooLow
  /-- there is no rule to apply -/
  | noRuleSet
deriving DecidableEq

/-- The wording of a command's error. -/
def CommandError.message : CommandError → String
  | .noName => "Unknown command. Type :help for help."
  | .unknown name => "Unknown command: " ++ name ++ ". Type :help for help."
  | .missingRule => "Usage: :rule PATTERN => TEMPLATE"
  | .unknownStrategy => "Unknown strategy. Options: " ++ Strategy.names
  | .noNumber => "Usage: :limit N"
  | .limitTooLow => "limit must be at least 1"
  | .noRuleSet => "no rule set. Use :rule PATTERN => TEMPLATE"

/-- Why a line has no answer. -/
inductive Failure where
  /-- a command is wrong, or comes too early -/
  | command (e : CommandError)
  /-- no rule can be had from a text -/
  | rule (e : RuleError)
  /-- the trees cannot be read -/
  | read (e : ReadError)
  /-- there is no strategy to apply the rule with -/
  | noStrategy
  /-- a tree has no fixpoint within the limit -/
  | fixpoint (e : FixpointError)

/-- The wording of a failure. -/
def Failure.message : Failure → String
  | .command e => e.message
  | .rule e => e.message
  | .read e => e.message
  | .noStrategy => Strategy.unknown (Strategy.nameOf none)
  | .fixpoint e => e.message

/-- What a switch is to be set to. -/
inductive Switch where
  /-- set it -/
  | on
  /-- reset it -/
  | off
  /-- change it -/
  | toggle
deriving DecidableEq

namespace Switch

/-- Read a switch, in any case. Whatever says neither on nor off changes it. -/
def ofChars (cs : List Char) : Switch :=
  let word := String.ofList (Text.lower cs)
  if ["on", "true", "1"].contains word then .on
  else if ["off", "false", "0"].contains word then .off
  else .toggle

/-- The setting after the switch, given the one before. -/
def apply : Switch → Bool → Bool
  | .on, _ => true
  | .off, _ => false
  | .toggle, current => !current

end Switch

/-- A command that can be obeyed. -/
inductive Command where
  /-- show the help -/
  | help
  /-- stop -/
  | quit
  /-- apply this rule from now on -/
  | rule (rule : Rule)
  /-- show the rule and the settings -/
  | showSettings
  /-- apply the rule in this way -/
  | strategy (strategy : Strategy)
  /-- make at most this many passes -/
  | limit (limit : Int)
  /-- switch strict matching -/
  | strict (switch : Switch)
  /-- switch tracing -/
  | trace (switch : Switch)

namespace Command

/-- Read a limit, which leaves at least one pass. -/
def readLimit (arg : List Char) : Except CommandError Int :=
  match Text.readInt? arg with
  | none => .error .noNumber
  | some n => if n < 1 then .error .limitTooLow else .ok n

/-- The command that sets a rule given as text. -/
def setRule (text : List Char) : Except Failure Command :=
  match Rule.ofText (String.ofList text) with
  | .ok r => .ok (.rule r)
  | .error e => .error (.rule e)

/-- The command of this name, in lower case, with this argument. -/
def ofName (name : String) (arg : List Char) : Except Failure Command :=
  match name with
  | "help" => .ok .help
  | "quit" | "exit" | "q" => .ok .quit
  | "rule" => if arg.isEmpty then .error (.command .missingRule) else setRule arg
  | "show" => .ok .showSettings
  | "strategy" =>
    match Strategy.ofName? (String.ofList (Text.lower arg)) with
    | some s => .ok (.strategy s)
    | none => .error (.command .unknownStrategy)
  | "limit" =>
    match readLimit arg with
    | .ok n => .ok (.limit n)
    | .error e => .error (.command e)
  | "strict" => .ok (.strict (Switch.ofChars arg))
  | "trace" => .ok (.trace (Switch.ofChars arg))
  | _ => .error (.command (.unknown name))

/-- Read a command. The first character of the line is its mark, whatever it is. -/
def ofLine (line : List Char) : Except Failure Command :=
  match Text.firstWord? (line.drop 1) with
  | none => .error (.command .noName)
  | some (word, rest) => ofName (String.ofList (Text.lower word)) (Text.trim rest)

end Command

end TreeRules
