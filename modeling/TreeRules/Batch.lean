import TreeRules.Prompt

/-!
# Batches: lines executed without a prompt

A batch of lines comes from a script or from standard input. Both are executed in order up to the
first line that fails. They differ in what is shown: a script shows results only and names
the place of a failure, while lines from standard input show every answer.
-/

namespace TreeRules

/-- Where the lines of a batch come from. -/
inductive Source where
  /-- a script of this name -/
  | script (name : String)
  /-- standard input, or an expression given with the command -/
  | input
deriving DecidableEq

namespace Source

/-- The text of a failure in the line of this number. -/
def failureText (source : Source) (number : Nat) (e : Failure) : String :=
  match source with
  | .script name => s!"{name}:{number}: " ++ Session.errorText e
  | .input => Session.errorText e

/-- The answers that are shown. -/
def shown (source : Source) (answer : Answer) : Option String :=
  match source with
  | .script _ => if answer.isResult then answer.text else none
  | .input => answer.text

end Source

/-- A batch that has ended. -/
structure BatchResult where
  /-- the session at the end -/
  session : Session
  /-- what was shown -/
  emissions : List Emission
  /-- zero if no line failed -/
  code : Nat

/-- Execute lines, the first of which has this number. -/
def runBatch (verbose : Bool) (source : Source) (number : Nat) (s : Session) :
    List (List Char) → BatchResult
  | [] => ⟨s, [], 0⟩
  | line :: lines =>
    let notes := Emission.notes verbose s line
    match s.execute line with
    | (s, .error e) => ⟨s, notes ++ [.err (source.failureText number e ++ "\n")], 1⟩
    | (s, .ok answer) =>
      let rest := runBatch verbose source (number + 1) s lines
      ⟨rest.session, notes ++ Emission.lineIfAny (source.shown answer) ++ rest.emissions, rest.code⟩

/-- Execute a script. -/
def runScript (verbose : Bool) (name : String) (s : Session) (text : List Char) : BatchResult :=
  runBatch verbose (.script name) 1 s (Text.linesAt Text.isLineBreak (Text.unifyNewlines text))

/-- Execute the lines of standard input. -/
def runInput (verbose : Bool) (s : Session) (text : List Char) : BatchResult :=
  runBatch verbose .input 1 s (Text.linesAt Text.isNewline (Text.unifyNewlines text))

/-- Execute a single line given with the command. -/
def runLine (verbose : Bool) (s : Session) (line : List Char) : BatchResult :=
  runBatch verbose .input 1 s [line]

end TreeRules
