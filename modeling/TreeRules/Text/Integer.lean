import TreeRules.Text.Blank

/-!
# Reading integers

An integer may be written with the decimal digits of any script, one after another even in
different scripts: `34`, `٣٤`, `１２`. A sign may stand in front, single underscores between two
digits, blanks around the whole. Superscripts and fractions are no digits. A numeral longer than
`maxDigits` digits, leading zeros counted, is refused.
-/

namespace TreeRules.Text

/-- The zeros of all scripts. The other nine digits of a script follow its zero. -/
def zeros : List Nat := [
  0x30, 0x660, 0x6F0, 0x7C0, 0x966, 0x9E6, 0xA66, 0xAE6, 0xB66, 0xBE6, 0xC66, 0xCE6, 0xD66,
  0xDE6, 0xE50, 0xED0, 0xF20, 0x1040, 0x1090, 0x17E0, 0x1810, 0x1946, 0x19D0, 0x1A80, 0x1A90,
  0x1B50, 0x1BB0, 0x1C40, 0x1C50, 0xA620, 0xA8D0, 0xA900, 0xA9D0, 0xA9F0, 0xAA50, 0xABF0, 0xFF10,
  0x104A0, 0x10D30, 0x11066, 0x110F0, 0x11136, 0x111D0, 0x112F0, 0x11450, 0x114D0, 0x11650,
  0x116C0, 0x11730, 0x118E0, 0x11950, 0x11C50, 0x11D50, 0x11DA0, 0x16A60, 0x16AC0, 0x16B50,
  0x1D7CE, 0x1D7D8, 0x1D7E2, 0x1D7EC, 0x1D7F6, 0x1E140, 0x1E2F0, 0x1E950, 0x1FBF0]

/-- The value of a decimal digit of any script. -/
def digitValue? (c : Char) : Option Nat :=
  (zeros.find? fun z => z ≤ c.toNat && c.toNat ≤ z + 9).map (c.toNat - ·)

/-- The most digits a numeral may have. -/
def maxDigits : Nat := 4300

/-- The blanks around a numeral: all but the four information separators. -/
def isNumeralBlank (c : Char) : Bool := isBlank c && !(0x1C ≤ c.toNat && c.toNat ≤ 0x1F)

/-- Read on behind a digit, with the value so far: each further digit may have one underscore in
front of it. -/
def moreDigits? (value : Nat) : List Char → Option Nat
  | [] => some value
  | '_' :: c :: cs => (digitValue? c).bind fun d => moreDigits? (10 * value + d) cs
  | c :: cs => (digitValue? c).bind fun d => moreDigits? (10 * value + d) cs

/-- Read a numeral without a sign. -/
def readNat? : List Char → Option Nat
  | [] => none
  | c :: cs =>
    if (c :: cs).countP (· != '_') ≤ maxDigits then
      (digitValue? c).bind (moreDigits? · cs)
    else none

/-- Read an integer: blanks, a sign, digits, blanks. -/
def readInt? (cs : List Char) : Option Int :=
  let numeral := ((cs.dropWhile isNumeralBlank).reverse.dropWhile isNumeralBlank).reverse
  match numeral with
  | '-' :: ds => (readNat? ds).map fun n => -(n : Int)
  | '+' :: ds => (readNat? ds).map fun n => (n : Int)
  | ds => (readNat? ds).map fun n => (n : Int)

end TreeRules.Text
