/-!
# Blanks: the characters that separate words

One class of characters separates tokens everywhere in this library — between the words of an
expression, around a rule line, after a command name, around a number. It is the class of
Unicode's spaces and line, paragraph and block separators, *with* the four information separators
`U+001C`–`U+001F` and the next-line character `U+0085`, and *without* the zero-width characters:
`U+200B`, `U+FEFF` and the soft hyphen are ordinary letters of a word.

Texts are lists of characters here, so that offsets count characters.
-/

namespace TreeRules.Text

/-- The characters that separate words. -/
def isBlank (c : Char) : Bool :=
  let n := c.toNat
  (0x09 ≤ n && n ≤ 0x0D) || (0x1C ≤ n && n ≤ 0x20) || n == 0x85 || n == 0xA0 || n == 0x1680 ||
    (0x2000 ≤ n && n ≤ 0x200A) || n == 0x2028 || n == 0x2029 || n == 0x202F || n == 0x205F ||
    n == 0x3000

/-- Drop the blanks at the start of a text. -/
def trimLeft (cs : List Char) : List Char := cs.dropWhile isBlank

/-- Drop the blanks at the end of a text. -/
def trimRight (cs : List Char) : List Char := (cs.reverse.dropWhile isBlank).reverse

/-- Drop the blanks on both sides of a text. -/
def trim (cs : List Char) : List Char := trimRight (trimLeft cs)

@[simp] theorem trim_nil : trim [] = [] := rfl

/-- Cut a text behind its first word: the word, and what follows the blanks after it. Blanks in
front of the first word are dropped; a text of blanks has no first word. -/
def firstWord? (cs : List Char) : Option (List Char × List Char) :=
  match trimLeft cs with
  | [] => none
  | cs => some (cs.takeWhile (!isBlank ·), trimLeft (cs.dropWhile (!isBlank ·)))

end TreeRules.Text
