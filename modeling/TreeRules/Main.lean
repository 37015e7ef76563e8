import TreeRules.CommandLine.Run

/-!
# The program

The command line decides what is to be done (`Plan`); what is left here is to read scripts and
standard input, and to write what is shown to the two outputs.
-/

namespace TreeRules.Program

/-- Write what is shown. -/
def emit (shown : List Emission) : IO Unit := do
  for e in shown do
    match e with
    | .out text =>
      let stdout ← IO.getStdout
      stdout.putStr text
      stdout.flush
    | .err text =>
      let stderr ← IO.getStderr
      stderr.putStr text
      stderr.flush

/-- The number of an error, which some systems report with its sign changed. -/
def errorNumber (code : UInt32) : Nat :=
  if code.toNat < 0x80000000 then code.toNat else 0x100000000 - code.toNat

/-- The fault with this number. -/
def numberedFault (code : UInt32) (wording : String) : FileFault :=
  match errorNumber code with
  | 2 => .notFound
  | 20 => .notDirectory
  | 21 => .isDirectory
  | 36 => .nameTooLong
  | number => .other number wording

/-- What an error of the file system means for a script. -/
def faultOf : IO.Error → FileFault
  | .noFileOrDirectory _ _ _ => .notFound
  | .inappropriateType _ code wording => numberedFault code wording
  | .permissionDenied _ code wording => numberedFault code wording
  | .invalidArgument _ code wording => numberedFault code wording
  | e => .other 5 e.toString

/-- Read a script. -/
def readScript (name : String) : IO (Except FileFault String) := do
  try
    return .ok (← IO.FS.readFile name)
  catch e =>
    return .error (faultOf e)

/-- Read all of standard input. -/
partial def readInput (stdin : IO.FS.Stream) (sofar : String) : IO String := do
  let line ← stdin.getLine
  if line.isEmpty then return sofar
  readInput stdin (sofar ++ line)

/-- Ask for lines until there are no more, or no more are wanted. -/
partial def ask (stdin : IO.FS.Stream) (verbose : Bool) (p : Prompt) : IO Unit := do
  if p.session.running then
    emit [.out p.mark]
    let line ← stdin.getLine
    if line.isEmpty then emit Prompt.atEnd
    else
      let (next, shown) := p.step verbose (.line (line.toList.takeWhile (· != '\n')))
      emit shown
      ask stdin verbose next

/-- Carry a plan out and answer the exit code. -/
def carryOut : Plan → IO Nat
  | .broken cause => do
    emit [.err (cause.message ++ "\n")]
    return 1
  | .script verbose name s => do
    let (shown, code) := Plan.runFile verbose name s (← readScript name)
    emit shown
    return code
  | .input verbose s => do
    let stdin ← IO.getStdin
    if ← stdin.isTty then
      emit [.out Prompt.banner]
      ask stdin verbose { session := s }
      return 0
    else
      let result := runInput verbose s (← readInput stdin "").toList
      emit result.emissions
      return result.code
  | .done shown code => do
    emit shown
    return code
  | .line verbose cs s => do
    let result := runLine verbose s cs
    emit result.emissions
    return result.code

end TreeRules.Program

/-- Run the program on these words. -/
def main (args : List String) : IO UInt32 := do
  return (← TreeRules.Program.carryOut (TreeRules.Plan.ofWords args)).toUInt32
