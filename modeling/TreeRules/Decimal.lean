/-!
# The shortest decimal for a number

A number in floating point is `m * 2 ^ e`, with a sign. It is the nearest number to many decimals;
the one that is written is the shortest of them, and of several shortest the one nearest to it. It
is searched for on ever finer decimal grids. On each only the two neighbours of the number are
tried: the decimals that read back as the number have no gaps between them, so if any point of the
grid is among them, one of the neighbours is.
-/

namespace TreeRules

/-- The decimal `digits * 10 ^ exponent`. -/
structure Decimal where
  /-- the digits, read as a whole number -/
  digits : Nat
  /-- the power of ten they count -/
  exponent : Int

namespace Decimal

/-- How many digits there are. -/
def size (d : Decimal) : Nat := (toString d.digits).length

/-- The number nearest to a decimal. An exponent beyond four hundred, or as far below the digits,
gives infinity or zero like the exponent at that bound. -/
def toFloat (d : Decimal) : Float :=
  let exponent := max (-(400 + d.size : Int)) (min 400 d.exponent)
  Float.ofScientific d.digits (exponent < 0) exponent.natAbs

/-- Is `m * 2 ^ e` the number nearest to a decimal? -/
def readsBack (m : Nat) (e : Int) (d : Decimal) : Bool :=
  match d.toFloat.toModel.unpack with
  | .finite _ m' e' _ => m' = m ∧ e' = e
  | _ => false

/-- The two neighbours of `m * 2 ^ e` among the multiples of `10 ^ place`, the nearer one first. If
they are equally near, that is the even one. -/
def neighbours (m : Nat) (e place : Int) : List Decimal :=
  let num := m * Nat.pow 2 e.toNat * Nat.pow 10 (-place).toNat
  let den := Nat.pow 2 (-e).toNat * Nat.pow 10 place.toNat
  let low := num / den
  let rest := num % den
  if 2 * rest < den ∨ (2 * rest = den ∧ low % 2 = 0) then [⟨low, place⟩, ⟨low + 1, place⟩]
  else [⟨low + 1, place⟩, ⟨low, place⟩]

/-- The place of the first digit of `m * 2 ^ e`, which is never further behind the point than the
330th. -/
def firstPlace (m : Nat) (e : Int) : Int :=
  let shifted : Decimal := ⟨m * Nat.pow 2 e.toNat * Nat.pow 10 330 / Nat.pow 2 (-e).toNat, -330⟩
  shifted.exponent + shifted.size - 1

/-- All the digits of `m * 2 ^ e`. -/
def exact (m : Nat) (e : Int) : Decimal :=
  if e < 0 then ⟨m * Nat.pow 5 (-e).toNat, e⟩ else ⟨m * Nat.pow 2 e.toNat, 0⟩

/-- The shortest decimal that reads back as `m * 2 ^ e`. Seventeen digits are enough to tell any two
numbers apart. -/
def shortest (m : Nat) (e : Int) : Decimal :=
  let first := firstPlace m e
  let found := (List.range 17).findSome? fun (n : Nat) =>
    (neighbours m e (first - n)).find? (readsBack m e)
  found.getD (exact m e)

/-- The digits without the zeros at their end. -/
def significant (d : Decimal) : List Char :=
  ((toString d.digits).toList.reverse.dropWhile (· == '0')).reverse

/-- The text of a decimal whose first digit is at this place, in front of the point or up to three
zeros behind it: there is always a digit on either side of the point. -/
def positional (digits : List Char) (first : Int) : List Char :=
  if first < 0 then '0' :: '.' :: (List.replicate (-first - 1).toNat '0' ++ digits)
  else
    let whole := digits.take (first.toNat + 1)
    let part := digits.drop (first.toNat + 1)
    whole ++ List.replicate (first.toNat + 1 - whole.length) '0'
      ++ '.' :: (if part.isEmpty then ['0'] else part)

/-- The text of a decimal whose first digit is at this place, with an exponent that has a sign and
at least two digits. -/
def withExponent (digits : List Char) (first : Int) : List Char :=
  let power := (toString first.natAbs).toList
  let fraction := digits.drop 1
  digits.take 1 ++ (if fraction.isEmpty then [] else '.' :: fraction)
    ++ 'e' :: (if first < 0 then '-' else '+') :: (if power.length < 2 then '0' :: power else power)

/-- The text of a decimal: positional when the first digit is between the fourth place behind the
point and the sixteenth in front of it, and with an exponent otherwise. -/
def written (d : Decimal) : String :=
  let first := d.exponent + d.size - 1
  String.ofList <|
    if -4 ≤ first ∧ first < 16 then positional d.significant first
    else withExponent d.significant first

/-- The sign in front of a number. -/
def signText : Float.Model.UnpackedFloat.Sign → String
  | .positive => ""
  | .negative => "-"

/-- The text of a number. -/
def ofFloat (x : Float) : String :=
  match x.toModel.unpack with
  | .notANumber => "nan"
  | .infinity s => signText s ++ "inf"
  | .zero s => signText s ++ "0.0"
  | .finite s m e _ => signText s ++ (shortest m e).written

end Decimal

end TreeRules
