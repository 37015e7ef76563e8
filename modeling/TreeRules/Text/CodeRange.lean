/-!
# Ranges of code points

The character classes that only a table can give — letters and digits of every script, decimal
digits, characters with no printed form — are lists of ranges of code points, both ends included,
in increasing order.
-/

namespace TreeRules.Text

/-- A class of characters, as ranges of code points with both ends included. -/
abbrev CodeRanges := List (Nat × Nat)

/-- Does one of the ranges hold the character's code point? -/
def CodeRanges.holds (table : CodeRanges) (c : Char) : Bool :=
  table.any fun r => r.1 ≤ c.toNat && c.toNat ≤ r.2

end TreeRules.Text
