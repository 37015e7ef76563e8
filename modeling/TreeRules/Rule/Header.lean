import TreeRules.Text.Blank
import TreeRules.Text.WordChar

/-!
# Headers of rule lines

A rule line may begin with a header, `@name:` or `@name "description":`. The name is made of word
characters and hyphens, the description of anything but double quotes. What is not formed like that
is no header, and the line is left whole.

What follows the colon is the rule proper: the blanks in front of it are skipped, and it ends with
its line. Where only blanks follow the colon, one of them is needed as the rule proper, the last
that is not a line feed; a header that nothing at all can follow is none.
-/

namespace TreeRules

/-- A rule line taken apart. -/
structure HeadedLine where
  /-- the name in the header -/
  name : Option String
  /-- the description in the header -/
  description : Option String
  /-- the line behind the header -/
  rest : List Char
deriving DecidableEq

namespace HeadedLine

/-- A line without a header. -/
def plain (cs : List Char) : HeadedLine := ⟨none, none, cs⟩

/-- Characters of a rule's name. -/
def isNamePart (c : Char) : Bool := Text.isWordChar c || c == '-'

/-- The rule proper, given what follows the colon. -/
def body? (cs : List Char) : Option (List Char) :=
  match Text.trimLeft cs with
  | [] => (cs.reverse.find? (· != '\n')).map ([·])
  | rest => some (rest.takeWhile (· != '\n'))

/-- Read a quoted description: the text up to the next double quote, and what follows that. -/
def quotedText? : List Char → Option (List Char × List Char)
  | '"' :: cs =>
    match cs.dropWhile (· != '"') with
    | [] => none
    | _ :: rest => some (cs.takeWhile (· != '"'), rest)
  | _ => none

/-- Read what follows the name in a header: blanks and a description, which both must be there if
one of them is, a colon, and the rule proper. -/
def afterName? (name : String) (cs : List Char) : Option HeadedLine :=
  match cs with
  | ':' :: rest => (body? rest).map fun body => ⟨some name, none, body⟩
  | c :: rest =>
    if Text.isBlank c then
      match quotedText? (Text.trimLeft rest) with
      | some (description, ':' :: rest) =>
        (body? rest).map fun body => ⟨some name, some (String.ofList description), body⟩
      | _ => none
    else none
  | [] => none

/-- Take a header off a line, if it begins with one. -/
def ofLine (cs : List Char) : HeadedLine :=
  match cs with
  | '@' :: rest =>
    match rest.takeWhile isNamePart with
    | [] => plain cs
    | name => (afterName? (String.ofList name) (rest.dropWhile isNamePart)).getD (plain cs)
  | _ => plain cs

end HeadedLine

end TreeRules
