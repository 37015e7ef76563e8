import TreeRules.Expr.Basic

/-!
# Lexemes: the words and parentheses of a text

A text falls into parentheses, each by itself, and *words*, the maximal runs of characters that are
neither blanks nor parentheses. Blanks only separate. Whether a word makes a leaf of a tree is
decided later: every text has lexemes.

Each lexeme carries the offset of its first character, counted in characters from the start of the
text, since that is where errors are reported.
-/

namespace TreeRules

/-- A parenthesis or a word. -/
inductive Lexeme where
  /-- the parenthesis that opens a list -/
  | opening
  /-- the parenthesis that closes a list -/
  | closing
  /-- a run of characters that are neither blanks nor parentheses -/
  | word (chars : List Char)
deriving DecidableEq

/-- Characters that words are made of. -/
def isWordPart (c : Char) : Bool := !(Text.isBlank c || c == '(' || c == ')')

/-- A lexeme and where it starts. -/
structure Located where
  /-- offset of the first character -/
  start : Nat
  /-- what stands there -/
  lexeme : Lexeme
deriving DecidableEq

namespace Located

/-- The offset behind the last character. -/
def stop (t : Located) : Nat :=
  t.start + match t.lexeme with
    | .word cs => cs.length
    | _ => 1

/-- Put a word character that stands at offset `pos` in front of lexemes: it joins a word that
starts right behind it, and is a word by itself otherwise. -/
def consWord (pos : Nat) (c : Char) : List Located → List Located
  | ⟨start, .word cs⟩ :: ts =>
    if start = pos + 1 then ⟨pos, .word (c :: cs)⟩ :: ts
    else ⟨pos, .word [c]⟩ :: ⟨start, .word cs⟩ :: ts
  | ts => ⟨pos, .word [c]⟩ :: ts

end Located

/-- The lexemes of a text that starts at offset `pos`. -/
def lexemesFrom (pos : Nat) : List Char → List Located
  | [] => []
  | c :: cs =>
    if c = '(' then ⟨pos, .opening⟩ :: lexemesFrom (pos + 1) cs
    else if c = ')' then ⟨pos, .closing⟩ :: lexemesFrom (pos + 1) cs
    else if Text.isBlank c then lexemesFrom (pos + 1) cs
    else Located.consWord pos c (lexemesFrom (pos + 1) cs)

/-- The lexemes of a text. -/
def lexemes (cs : List Char) : List Located := lexemesFrom 0 cs

end TreeRules
