import TreeRules.Text.Integer

/-!
# Options and the words of a command line

An option has a long name, most have a short one, and some take a value. A long name may be
shortened as long as it stays clear which one is meant; its value follows after an equals sign or as
the next word. A short name is a single letter; what is joined to it, with or without an equals
sign, is its value, or, if it takes none, more short names.

Every word is classified by itself before any of them is used. A word that begins with a hyphen may
still be a plain one: the hyphen alone, a negative number, and what has a space in it and is not an
option, shortened or joined. Behind the word `--` all words are plain.
-/

namespace TreeRules

/-- The options of the command line. -/
inductive Opt where
  /-- show how the program is used -/
  | help
  /-- the rule to apply -/
  | rule
  /-- a line to execute -/
  | expr
  /-- how the rule is applied -/
  | strategy
  /-- the most passes to a fixpoint -/
  | maxIterations
  /-- match repeated variables strictly -/
  | strict
  /-- show every pass -/
  | trace
  /-- watch the search for a fixpoint -/
  | verbose
  /-- show the version -/
  | version
deriving DecidableEq

namespace Opt

/-- The options, in the order in which messages list them. -/
def every : List Opt :=
  [.help, .rule, .expr, .strategy, .maxIterations, .strict, .trace, .verbose, .version]

/-- The letter of the short name. -/
def letter? : Opt → Option Char
  | .help => some 'h'
  | .rule => some 'r'
  | .expr => some 'e'
  | .strategy => some 's'
  | .maxIterations => some 'n'
  | .trace => some 't'
  | .verbose => some 'v'
  | .strict | .version => none

/-- The long name, with its hyphens. -/
def longName : Opt → String
  | .help => "--help"
  | .rule => "--rule"
  | .expr => "--expr"
  | .strategy => "--strategy"
  | .maxIterations => "--max-iterations"
  | .strict => "--strict"
  | .trace => "--trace"
  | .verbose => "--verbose"
  | .version => "--version"

/-- Both names, as messages show them. -/
def label (o : Opt) : String :=
  (o.letter?.elim "" fun c => "-" ++ String.singleton c ++ "/") ++ o.longName

/-- Does the option take a value? -/
def takesValue : Opt → Bool
  | .rule | .expr | .strategy | .maxIterations => true
  | _ => false

/-- The option with this letter. -/
def ofLetter? (c : Char) : Option Opt := every.find? (·.letter? == some c)

/-- The options whose long name begins like this. -/
def beginning (cs : List Char) : List Opt := every.filter fun o => cs.isPrefixOf o.longName.toList

/-- The option with exactly this long name. -/
def ofLongName? (cs : List Char) : Option Opt := every.find? (·.longName.toList == cs)

@[simp] theorem ofLongName?_longName (o : Opt) : ofLongName? o.longName.toList = some o := by
  cases o <;> decide +kernel

end Opt

/-- What a word of the command line is. -/
inductive WordClass where
  /-- a word without further meaning -/
  | plain
  /-- the word behind which all words are plain -/
  | separator
  /-- a short option and what is joined to it -/
  | short (o : Opt) (joined : Option (List Char))
  /-- a long option and the value behind an equals sign -/
  | long (o : Opt) (value : Option (List Char))
  /-- an option nobody knows -/
  | unknown

/-- Is this a number with a minus sign: digits, or digits after a point with or without digits
before it? A line feed at the end does not count. -/
def isNegativeNumber (cs : List Char) : Bool :=
  match cs with
  | '-' :: cs =>
    let cs := if cs.getLast? = some '\n' then cs.dropLast else cs
    match cs.dropWhile (fun c => (Text.digitValue? c).isSome) with
    | [] => !cs.isEmpty
    | '.' :: fraction =>
      !fraction.isEmpty && fraction.all fun c => (Text.digitValue? c).isSome
    | _ => false
  | _ => false

namespace WordClass

/-- The class of a word that begins with a hyphen and names no option. -/
def ofStranger (cs : List Char) : WordClass :=
  if isNegativeNumber cs || cs.contains ' ' then .plain else .unknown

/-- The class of a word that begins with two hyphens; or the options that it could mean. -/
def ofLong (cs : List Char) : Except (List Opt) WordClass :=
  let name := cs.takeWhile (· != '=')
  let value := (cs.dropWhile (· != '=')).tail?
  match Opt.ofLongName? name with
  | some o => .ok (.long o value)
  | none =>
    match Opt.beginning name with
    | [] => .ok (ofStranger cs)
    | [o] => .ok (.long o value)
    | candidates => .error candidates

/-- What is joined to a short name. An equals sign right behind the name does not count. -/
def joinedPart : List Char → Option (List Char)
  | [] => none
  | '=' :: value => some value
  | cs => some cs

/-- The class of a word other than the separator; or the options that it could mean. -/
def ofChars (cs : List Char) : Except (List Opt) WordClass :=
  match cs with
  | '-' :: '-' :: _ => ofLong cs
  | '-' :: c :: rest =>
    match Opt.ofLetter? c with
    | some o => .ok (.short o (joinedPart rest))
    | none => .ok (ofStranger cs)
  | _ => .ok .plain

end WordClass

end TreeRules
