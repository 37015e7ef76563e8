import TreeRules.Text.Printable

/-!
# Quoted texts

Messages show a text between quotes and on one line, so that blanks and controls in it can be seen.
The quotes are single ones, unless the text holds a single quote and no double one. Inside, the
backslash and the quote in use are escaped, line feed, carriage return and tab have short escapes,
and every other character that is not printable is shown by its code point in hexadecimal.
-/

namespace TreeRules.Text

/-- The hexadecimal digits of a number, the most significant first, on exactly `width` places. -/
def hexDigits : (width : Nat) → Nat → List Char
  | 0, _ => []
  | width + 1, n => hexDigits width (n / 16) ++ [Nat.digitChar (n % 16)]

/-- As many digits as asked for. -/
@[simp] theorem length_hexDigits (width n : Nat) : (hexDigits width n).length = width := by
  induction width generalizing n with
  | zero => rfl
  | succ width ih => simp [hexDigits, ih]

/-- One character of a quoted text. -/
def escapeChar (quote c : Char) : List Char :=
  if c = '\\' ∨ c = quote then ['\\', c]
  else if c = '\n' then ['\\', 'n']
  else if c = '\r' then ['\\', 'r']
  else if c = '\t' then ['\\', 't']
  else if isPrintable c then [c]
  else if c.toNat < 0x100 then '\\' :: 'x' :: hexDigits 2 c.toNat
  else if c.toNat < 0x10000 then '\\' :: 'u' :: hexDigits 4 c.toNat
  else '\\' :: 'U' :: hexDigits 8 c.toNat

/-- The quote a text is shown between. -/
def quoteFor (cs : List Char) : Char :=
  if cs.contains '\'' && !cs.contains '"' then '"' else '\''

/-- A text between quotes. -/
def quoteChars (cs : List Char) : List Char :=
  let quote := quoteFor cs
  quote :: cs.flatMap (escapeChar quote) ++ [quote]

/-- A text between quotes. -/
def quoted (s : String) : String := String.ofList (quoteChars s.toList)

end TreeRules.Text
