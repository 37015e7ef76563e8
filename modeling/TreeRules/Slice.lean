/-!
# Positions and slices

A position in a list counts from the front, or, when it is negative, from the back. A slice walks
from one position to another in steps of one length, forwards or backwards, without its end; ends
that lie outside the list are moved to where it begins or ends.

Positions are 64-bit numbers. A single position that is no such number is refused before any list
is looked at.
-/

namespace TreeRules

/-- Where to cut a list. -/
structure Slice where
  /-- the first position, if it is not the end the steps lead away from -/
  start : Option Int
  /-- the position to stop in front of, if it is not the end the steps lead to -/
  stop : Option Int
  /-- the length of the steps, if it is not one -/
  step : Option Int

/-- Why a list has no such part. -/
inductive SliceError where
  /-- there is nothing at a position -/
  | outOfRange
  /-- no list could be long enough to have a position -/
  | beyondLists
  /-- steps of length zero lead nowhere -/
  | zeroStep
deriving DecidableEq

/-- The wording of a missing part. -/
def SliceError.message : SliceError → String
  | .outOfRange => "tuple index out of range"
  | .beyondLists => "cannot fit 'int' into an index-sized integer"
  | .zeroStep => "slice step cannot be zero"

namespace Slice

variable {α : Type}

/-- How many positions there are on either side of the front: half of all 64-bit numbers. -/
def reach : Int := 0x8000000000000000

/-- What stands at a position. -/
def item (xs : List α) (i : Int) : Except SliceError α :=
  if i < -reach ∨ reach ≤ i then .error .beyondLists
  else
    let i := if i < 0 then i + xs.length else i
    match if i < 0 then none else xs[i.toNat]? with
    | some x => .ok x
    | none => .error .outOfRange

/-- An end of a slice as a position from the front, moved into `low`–`high`. -/
def clamp (size low high : Int) (i : Int) : Int :=
  if i < 0 then max (i + size) low else min i high

/-- As many positions as asked for, from `start` in steps of this length. -/
def walk (start step : Int) (count : Nat) : List Nat :=
  (List.range count).map fun (k : Nat) => (start + (k : Int) * step).toNat

/-- The positions a slice of a list of this size visits. -/
def positions (s : Slice) (size : Nat) : Except SliceError (List Nat) :=
  let step := s.step.getD 1
  let n : Int := size
  if step = 0 then .error .zeroStep
  else if step > 0 then
    let start := (s.start.map (clamp n 0 n)).getD 0
    let stop := (s.stop.map (clamp n 0 n)).getD n
    .ok (walk start step ((stop - start + step - 1) / step).toNat)
  else
    let start := (s.start.map (clamp n (-1) (n - 1))).getD (n - 1)
    let stop := (s.stop.map (clamp n (-1) (n - 1))).getD (-1)
    .ok (walk start step ((start - stop - step - 1) / (-step)).toNat)

/-- The part of a list that a slice visits. -/
def cut (s : Slice) (xs : List α) : Except SliceError (List α) :=
  (s.positions xs.length).map fun is => is.filterMap (xs[·]?)

end Slice

end TreeRules
