import TreeRules.Datum
import TreeRules.Text.Blank

/-!
# Tokens: the names of atoms and variables

A name has to come back as the same single word when the text of an expression is read again. So it
is not empty, and it holds no blank and no parenthesis, which would end the word, and no underscore,
which would start the suffix of a marker. `Token` is a text with these properties, so that a tree
with an unreadable name cannot be built; `Token.ofDatum?` is the check for values that come from
outside, with the errors it reports.
-/

namespace TreeRules

/-- Characters that end the name in front of them. -/
def isReserved (c : Char) : Bool := c == '(' || c == ')' || c == '_'

/-- Characters a name may hold. -/
def isNameChar (c : Char) : Bool := !(Text.isBlank c || isReserved c)

/-- A text that reads back as one name. -/
structure Token where
  /-- the characters of the name -/
  chars : List Char
  /-- a name has a first character -/
  ne_nil : chars ≠ []
  /-- no character of the name ends it -/
  allowed : chars.all isNameChar = true
deriving DecidableEq

/-- What a name is wanted for. -/
inductive NameRole where
  /-- the name of an atom -/
  | atom
  /-- the name of a variable -/
  | variable
deriving DecidableEq

/-- What messages call a name of this role. -/
def NameRole.label : NameRole → String
  | .atom => "atom"
  | .variable => "variable name"

/-- Why a value cannot be a name. -/
inductive TokenError where
  /-- it is no text, or the empty one -/
  | noText (role : NameRole) (given : Datum)
  /-- it holds a character that would end the name; this is the first one -/
  | notAllowed (role : NameRole) (text : String) (c : Char)

/-- The wording of a refused name. -/
def TokenError.message : TokenError → String
  | .noText role given => role.label ++ " must be a non-empty string, got " ++ given.written
  | .notAllowed role text c =>
    role.label ++ " " ++ Text.quoted text ++ " may not contain " ++ Text.quoted (String.singleton c)

namespace Token

/-- The name as a text. -/
def text (t : Token) : String := String.ofList t.chars

/-- A name with these characters, if they make one. -/
def ofChars? (cs : List Char) : Option Token :=
  if h : cs ≠ [] ∧ cs.all isNameChar = true then some ⟨cs, h.1, h.2⟩ else none

/-- A name from a value offered for it. -/
def ofDatum? (role : NameRole) (given : Datum) : Except TokenError Token :=
  match given with
  | .text s =>
    match ofChars? s.toList with
    | some t => .ok t
    | none =>
      match s.toList.find? (!isNameChar ·) with
      | some c => .error (.notAllowed role s c)
      | none => .error (.noText role given)
  | _ => .error (.noText role given)

@[simp] theorem ofChars?_chars (t : Token) : ofChars? t.chars = some t := by
  simp only [ofChars?, dif_pos (And.intro t.ne_nil t.allowed)]

theorem ofChars?_eq_some_iff {cs : List Char} {t : Token} :
    ofChars? cs = some t ↔ cs = t.chars := by
  refine ⟨fun h => ?_, fun h => h ▸ ofChars?_chars t⟩
  unfold ofChars? at h
  split at h
  · exact (congrArg chars (Option.some.inj h))
  · exact absurd h (by simp)

theorem text_injective {a b : Token} (h : a.text = b.text) : a = b := by
  have hc : a.chars = b.chars := by simpa [text, String.ofList_inj] using h
  cases a; cases b; cases hc; rfl

/-- The name of one letter. -/
def letter (c : Char) (h : isNameChar c = true) : Token :=
  ⟨[c], List.cons_ne_nil c [], by rw [List.all_cons, h, List.all_nil, Bool.and_self]⟩

/-- The head of the list that stands for a run where no list can take its items in. -/
def sequence : Token := ⟨['S', 'e', 'q', 'u', 'e', 'n', 'c', 'e'], by decide, by decide⟩

end Token

end TreeRules
