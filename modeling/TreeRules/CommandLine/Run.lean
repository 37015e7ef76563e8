import TreeRules.Batch
import TreeRules.CommandLine.Arguments
import TreeRules.Files

/-!
# Running a command line

A command line leads to a `Plan`: either everything is settled, or a session is ready and lines have
to be found for it — in a script, in the command itself, or on standard input. `Plan.run` carries a
plan out when everything it can ask for is at hand; the program itself asks for it as it goes.

Two things are noticed too late to be reported as faults of the command line, a limit that has been
taken away and a script's name that no system can take: the program breaks down over them.
-/

namespace TreeRules

/-- The name and the version of the program. -/
def versionText : String := "ers 0.1.0"

/-- How the program is used. -/
def usageText : String := "\n".intercalate [
  "usage: ers [-h] [-r RULE] [-e EXPR] [-s \x7bonce,all,fixpoint\x7d] [-n MAX_ITERATIONS]",
  "           [--strict] [-t] [-v] [--version]",
  "           [script]",
  "",
  "ERS - Expression Rewriting System"]

/-- Why the program breaks down. -/
inductive Breakdown where
  /-- there is no limit to compare with the least one -/
  | noLimit
  /-- a file name has the character with number zero in it -/
  | nullInName
deriving DecidableEq

/-- The wording of a breakdown. -/
def Breakdown.message : Breakdown → String
  | .noLimit => "'<' not supported between instances of 'list' and 'int'"
  | .nullInName => "embedded null byte"

/-- What a command line leads to. -/
inductive Plan where
  /-- nothing can be done -/
  | broken (cause : Breakdown)
  /-- nothing is left to do but to show this -/
  | done (shown : List Emission) (code : Nat)
  /-- execute a script -/
  | script (verbose : Bool) (name : String) (s : Session)
  /-- execute this line -/
  | line (verbose : Bool) (cs : List Char) (s : Session)
  /-- execute what comes from standard input -/
  | input (verbose : Bool) (s : Session)

namespace Plan

/-- The session that arguments ask for, with the rule among them. -/
def session (args : Arguments) (limit : Int) : Except Failure Session :=
  let s : Session :=
    { strategy := args.strategy, limit, strict := args.strict, tracing := args.trace }
  match args.rule.filter (· != "") with
  | none => .ok s
  | some text =>
    match s.setRule text.toList with
    | (s, .ok _) => .ok s
    | (_, .error e) => .error e

/-- What a session leads to that has these arguments. An empty text is as good as none. -/
def ofSession (args : Arguments) (s : Session) : Plan :=
  match args.script.filter (· != ""), args.expr.filter (· != "") with
  | some name, _ =>
    if name.toList.contains '\x00' then broken .nullInName
    else script args.verbose (Path.plain name) s
  | none, some text => line args.verbose text.toList s
  | none, none => input args.verbose s

/-- What these arguments lead to. -/
def ofArguments (args : Arguments) : Plan :=
  match args.limit with
  | none => broken .noLimit
  | some limit =>
    match session args limit with
    | .error e => done [.err (Session.errorText e ++ "\n")] 1
    | .ok s => ofSession args s

/-- What this command line leads to. -/
def ofWords (words : List String) : Plan :=
  match CommandRequest.ofWords words with
  | .error e => done [.err ("ers: error: " ++ e.message ++ "\n")] 2
  | .ok .help => done [.line usageText] 0
  | .ok .version => done [.line versionText] 0
  | .ok (.run args) => ofArguments args

/-- What there is on standard input. -/
inductive StandardInput where
  /-- a text that is all there -/
  | piped (text : List Char)
  /-- someone at a keyboard -/
  | typed (events : List Event)

/-- What a script shows, given its file. -/
def runFile (verbose : Bool) (name : String) (s : Session) :
    Except FileFault String → List Emission × Nat
  | .error fault => ([.err (fault.message name ++ "\n")], 1)
  | .ok text =>
    let result := runScript verbose name s text.toList
    (result.emissions, result.code)

/-- Carry a plan out: everything that is shown, and the exit code. -/
def run (readFile : String → Except FileFault String) (stdin : StandardInput) :
    Plan → Except Breakdown (List Emission × Nat)
  | .broken cause => .error cause
  | .done shown code => .ok (shown, code)
  | .script verbose name s => .ok (runFile verbose name s (readFile name))
  | .line verbose cs s =>
    let result := runLine verbose s cs
    .ok (result.emissions, result.code)
  | .input verbose s =>
    match stdin with
    | .piped text =>
      let result := runInput verbose s text
      .ok (result.emissions, result.code)
    | .typed events => .ok (.out Prompt.banner :: (Prompt.run verbose { session := s } events).2, 0)

end Plan

end TreeRules
