import TreeRules.CommandLine.Options
import TreeRules.Rule.Basic
import TreeRules.Text.Quoted

/-!
# Reading the command line

The classified words are used from left to right. A plain word is the script, if there is none yet;
a further one has no use and is kept for the complaint at the end. A value is converted when its
option is used, and asking for the version or the help ends the reading at once. So of two faults
the first counts, except that an unclear option is noticed before anything is used, and useless
words after everything else.

The separator is no value here. An option that finds it joined to its name has its setting taken
away, whatever the setting was before. This is not how command lines are read in general: particular
older releases of the argument parser of the standard library drop a joined separator, and it is
those that are followed here. Newer releases refuse it as the name of a strategy.
-/

namespace TreeRules

/-- What is wrong with a command line. -/
inductive UsageError where
  /-- a shortened option could mean several -/
  | ambiguous (word : String) (candidates : List Opt)
  /-- an option lacks its value -/
  | noValue (o : Opt)
  /-- an option has a value that it does not take -/
  | uselessValue (o : Opt) (value : String)
  /-- a value is no integer -/
  | notInteger (o : Opt) (value : String)
  /-- a value is no strategy -/
  | notStrategy (o : Opt) (value : String)
  /-- words that have no use -/
  | unrecognized (words : List String)
  /-- the limit leaves no pass -/
  | limitTooLow
deriving DecidableEq

/-- The wording of a usage error. -/
def UsageError.message : UsageError → String
  | .ambiguous word candidates =>
    "ambiguous option: " ++ word ++ " could match "
      ++ ", ".intercalate (candidates.map Opt.longName)
  | .noValue o => "argument " ++ o.label ++ ": expected one argument"
  | .uselessValue o value =>
    "argument " ++ o.label ++ ": ignored explicit argument " ++ Text.quoted value
  | .notInteger o value => "argument " ++ o.label ++ ": invalid int value: " ++ Text.quoted value
  | .notStrategy o value =>
    "argument " ++ o.label ++ ": invalid choice: " ++ Text.quoted value ++ " (choose from "
      ++ ", ".intercalate (Strategy.every.map fun s => Text.quoted s.name) ++ ")"
  | .unrecognized words => "unrecognized arguments: " ++ " ".intercalate words
  | .limitTooLow => "--max-iterations must be at least 1"

/-- What the command line asks for. -/
structure Arguments where
  /-- the script to run -/
  script : Option String := none
  /-- the rule to start with -/
  rule : Option String := none
  /-- the line to execute -/
  expr : Option String := none
  /-- how the rule is applied, unless that has been taken away -/
  strategy : Option Strategy := some .fixpoint
  /-- the most passes to a fixpoint, unless that has been taken away -/
  limit : Option Int := some defaultLimit
  /-- match repeated variables strictly -/
  strict : Bool := false
  /-- show every pass -/
  trace : Bool := false
  /-- watch the search for a fixpoint -/
  verbose : Bool := false
deriving DecidableEq

/-- What reading the command line comes to. -/
inductive CommandRequest where
  /-- show how the program is used -/
  | help
  /-- show the version -/
  | version
  /-- run -/
  | run (args : Arguments)
deriving DecidableEq

/-- One use that a word of the command line has. -/
inductive Usage where
  /-- an option without a value -/
  | flag (o : Opt)
  /-- an option with its value -/
  | value (o : Opt) (value : List Char)
  /-- none -/
  | none (word : List Char)

/-- All that a word is used for: its uses, and the option behind them that finds its value in the
next word. -/
structure WordUse where
  /-- what the word itself is used for -/
  uses : List Usage
  /-- the option that awaits its value -/
  awaiting : Option Opt

namespace WordUse

/-- An option with nothing attached. -/
def bare (o : Opt) : WordUse := if o.takesValue then ⟨[], some o⟩ else ⟨[.flag o], none⟩

/-- An option with a value in the same word. -/
def attached (o : Opt) (value : List Char) : Except UsageError WordUse :=
  if o.takesValue then .ok ⟨[.value o value], none⟩
  else .error (.uselessValue o (String.ofList value))

/-- Short options in one word: one of them, and the letters behind it. The first that takes a value
finds it in the rest of the word. -/
def ofLetters (o : Opt) : List Char → Except UsageError WordUse
  | [] => .ok (bare o)
  | c :: cs =>
    if o.takesValue then attached o (c :: cs)
    else
      match Opt.ofLetter? c with
      | none => attached o (c :: cs)
      | some next => (ofLetters next cs).map fun u => { u with uses := .flag o :: u.uses }

/-- What a word of this class is used for. -/
def ofWord (word : List Char) : WordClass → Except UsageError WordUse
  | .short o none => .ok (bare o)
  | .short o (some []) => attached o []
  | .short o (some joined) => ofLetters o joined
  | .long o none => .ok (bare o)
  | .long o (some value) => attached o value
  | _ => .ok ⟨[.none word], none⟩

end WordUse

/-- How far the reading has come. -/
structure Reading where
  /-- what has been asked for so far -/
  args : Arguments := {}
  /-- is a plain word still the script? -/
  wantsScript : Bool := true
  /-- was the word before this one taken as the script? -/
  afterScript : Bool := false
  /-- the words without use, last first -/
  useless : List String := []

namespace Reading

/-- Note a word without use. -/
def reject (r : Reading) (word : String) : Reading :=
  { r with afterScript := false, useless := word :: r.useless }

/-- Use a plain word. -/
def takePlain (r : Reading) (word : String) : Reading :=
  if r.wantsScript then
    { r with args.script := some word, wantsScript := false, afterScript := true }
  else r.reject word

/-- Use the separator: it is silent in front of the script and right behind it. -/
def takeSeparator (r : Reading) : Reading :=
  if r.wantsScript then r
  else if r.afterScript then { r with afterScript := false }
  else r.reject "--"

/-- Take away the setting of an option that takes a value. -/
def unset (r : Reading) : Opt → Reading
  | .rule => { r with args.rule := none }
  | .expr => { r with args.expr := none }
  | .strategy => { r with args.strategy := none }
  | .maxIterations => { r with args.limit := none }
  | _ => r

/-- Use an option with its value. -/
def takeText (r : Reading) (o : Opt) (value : List Char) : Except UsageError Reading :=
  let text := String.ofList value
  match o with
  | .rule => .ok { r with args.rule := some text }
  | .expr => .ok { r with args.expr := some text }
  | .strategy =>
    match Strategy.ofName? text with
    | some s => .ok { r with args.strategy := some s }
    | none => .error (.notStrategy o text)
  | .maxIterations =>
    match Text.readInt? value with
    | some n => .ok { r with args.limit := some n }
    | none => .error (.notInteger o text)
  | _ => .error (.uselessValue o text)

/-- Use an option with what stands for its value. A joined separator is dropped, as it is by
particular older releases of the standard library's argument parser, and leaves the option without a
value. -/
def takeValue (r : Reading) (o : Opt) (value : List Char) : Except UsageError Reading :=
  let r := { r with afterScript := false }
  if value = ['-', '-'] then .ok (r.unset o) else r.takeText o value

/-- Use an option without a value. The help and the version end the reading. -/
def takeFlag (r : Reading) (o : Opt) : CommandRequest ⊕ Reading :=
  let r := { r with afterScript := false }
  match o with
  | .help => .inl .help
  | .version => .inl .version
  | .strict => .inr { r with args.strict := true }
  | .trace => .inr { r with args.trace := true }
  | .verbose => .inr { r with args.verbose := true }
  | _ => .inr r

/-- Use all that one word is used for, unless the reading ends before. -/
def takeUses (r : Reading) : List Usage → Except UsageError (CommandRequest ⊕ Reading)
  | [] => .ok (.inr r)
  | .flag o :: rest =>
    match r.takeFlag o with
    | .inl request => .ok (.inl request)
    | .inr r => takeUses r rest
  | .value o value :: rest =>
    match r.takeValue o value with
    | .error e => .error e
    | .ok r => takeUses r rest
  | .none word :: rest => takeUses (r.reject (String.ofList word)) rest

/-- Use words one after another. An option's value in the next word must be a plain word. -/
def takeWords (r : Reading) : List (String × WordClass) → Except UsageError CommandRequest
  | [] =>
    if r.useless.isEmpty then .ok (.run r.args) else .error (.unrecognized r.useless.reverse)
  | (word, .plain) :: rest => takeWords (r.takePlain word) rest
  | (_, .separator) :: rest => takeWords r.takeSeparator rest
  | (word, c) :: rest =>
    match WordUse.ofWord word.toList c with
    | .error e => .error e
    | .ok ⟨uses, none⟩ =>
      match r.takeUses uses with
      | .error e => .error e
      | .ok (.inl request) => .ok request
      | .ok (.inr r) => takeWords r rest
    | .ok ⟨uses, some o⟩ =>
      match rest with
      | (value, .plain) :: rest =>
        match r.takeUses (uses ++ [.value o value.toList]) with
        | .error e => .error e
        | .ok (.inl request) => .ok request
        | .ok (.inr r) => takeWords r rest
      | _ => .error (.noValue o)

end Reading

/-- Classify the words of a command line, each by itself up to the separator. -/
def classifyWords : List String → Except UsageError (List (String × WordClass))
  | [] => .ok []
  | word :: words =>
    if word = "--" then .ok ((word, .separator) :: words.map (·, .plain))
    else
      match WordClass.ofChars word.toList with
      | .error candidates => .error (.ambiguous word candidates)
      | .ok c => (classifyWords words).map ((word, c) :: ·)

namespace CommandRequest

/-- Refuse a limit that leaves no pass. -/
def checkLimit : CommandRequest → Except UsageError CommandRequest
  | .run args => if args.limit.any (· < 1) then .error .limitTooLow else .ok (.run args)
  | request => .ok request

/-- Read the words of a command line. -/
def ofWords (words : List String) : Except UsageError CommandRequest :=
  match classifyWords words with
  | .error e => .error e
  | .ok classified =>
    match ({} : Reading).takeWords classified with
    | .error e => .error e
    | .ok request => request.checkLimit

end CommandRequest

end TreeRules
