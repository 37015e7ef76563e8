import TreeRules.Session.Basic

/-!
# The prompt: typed lines, and texts over several lines

At the prompt, typed lines are collected until they close as many parentheses as they open. The
collected lines, joined by line feeds, are one text for the session. While lines are being
collected the prompt is another one, and an interrupt throws away what has been collected.

The prompt is a machine that an event — a typed line or an interrupt — takes from one state to the
next. The end of the input ends it, and so does a session that wants no further lines.
-/

namespace TreeRules

/-- Text for one of the two outputs. -/
inductive Emission where
  /-- text for whoever wants the results -/
  | out (text : String)
  /-- text for whoever watches over the program -/
  | err (text : String)
deriving DecidableEq

namespace Emission

/-- A line of output. -/
def line (text : String) : Emission := .out (text ++ "\n")

/-- A line of output, unless there is nothing to say. -/
def lineIfAny (text : Option String) : List Emission :=
  match text.filter (· != "") with
  | some text => [line text]
  | none => []

/-- The text for the results. -/
def outText (es : List Emission) : String :=
  String.join (es.map fun | .out text => text | .err _ => "")

/-- The text for the watcher. -/
def errText (es : List Emission) : String :=
  String.join (es.map fun | .err text => text | .out _ => "")

/-- A note of a watched search. -/
def note (n : FixpointNote) : Emission := .err ("DEBUG ers.rewriter: " ++ n.message ++ "\n")

/-- What a session tells about a line when it is watched. -/
def notes (verbose : Bool) (s : Session) (line : List Char) : List Emission :=
  if verbose then (s.notes line).map note else []

end Emission

/-- What happens at the prompt. -/
inductive Event where
  /-- a line is typed -/
  | line (cs : List Char)
  /-- the user interrupts -/
  | interrupt

/-- The state of the prompt. -/
structure Prompt where
  /-- the session the texts are for -/
  session : Session
  /-- the lines collected so far, joined by line feeds -/
  buffer : List Char := []

namespace Prompt

/-- What is shown before the first prompt. -/
def banner : String :=
  "ERS - Expression Rewriting System\nType :help for help, :quit to exit\n\n"

/-- What asks for a line. -/
def mark (p : Prompt) : String := if p.buffer.isEmpty then "ers> " else "...... "

/-- The collected text with one more line. -/
def extend (p : Prompt) (cs : List Char) : List Char :=
  if p.buffer.isEmpty then cs else p.buffer ++ '\n' :: cs

/-- What an event does. -/
def step (verbose : Bool) (p : Prompt) : Event → Prompt × List Emission
  | .line cs =>
    let text := p.extend cs
    if openParens text > 0 then ({ p with buffer := text }, [])
    else
      let (session, said) := p.session.process text
      ({ session }, Emission.notes verbose p.session text ++ Emission.lineIfAny said)
  | .interrupt =>
    ({ p with buffer := [] }, [.out (if p.buffer.isEmpty then "\n" else "\nInput cancelled\n")])

/-- What the end of the input does. -/
def atEnd : List Emission := [.out "\n"]

/-- Everything that is shown while these events happen, and the state at the end. -/
def run (verbose : Bool) (p : Prompt) (events : List Event) : Prompt × List Emission :=
  if p.session.running then
    match events with
    | [] => (p, .out p.mark :: atEnd)
    | event :: events =>
      let (next, shown) := p.step verbose event
      let (last, rest) := run verbose next events
      (last, .out p.mark :: shown ++ rest)
  else (p, [])

end Prompt

end TreeRules
