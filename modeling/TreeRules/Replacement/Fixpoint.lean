import TreeRules.Replacement.Basic

/-!
# Replacing until nothing matches

Passes are repeated until one finds nothing to replace. Nothing promises that this happens, so the
number of passes is limited, and the last pass, the one that finds nothing, counts as well: with a
limit of `n`, a tree may change in at most `n - 1` passes. A limit below one is refused.

A search can be watched. `FixpointNote`s tell, pass by pass, what it did.
-/

namespace TreeRules

/-- Why a search for a fixpoint has no result. -/
inductive FixpointError where
  /-- every pass within the limit changed the tree -/
  | exhausted (limit : Int)
  /-- the limit leaves no pass at all -/
  | badLimit (limit : Int)
deriving DecidableEq

/-- The wording of a failed search. -/
def FixpointError.message : FixpointError → String
  | .exhausted limit => s!"rewrite did not converge within {limit} iterations"
  | .badLimit limit => s!"max_iterations must be at least 1, got {limit}"

/-- How many passes are made where nothing else is said. -/
def defaultLimit : Int := 1000

/-- One thing a watched search tells. -/
inductive FixpointNote where
  /-- this pass changed the tree -/
  | changed (pass : Nat)
  /-- the search ended with this pass, which found nothing -/
  | reached (passes : Nat)
  /-- the search gave up -/
  | notReached (limit : Int)
deriving DecidableEq

/-- The wording of a note. -/
def FixpointNote.message : FixpointNote → String
  | .changed pass => s!"pass {pass} rewrote the tree"
  | .reached passes => s!"fixpoint reached after {passes} pass(es)"
  | .notReached limit => s!"no fixpoint within {limit} passes"

namespace Replacement

/-- Make passes until one finds nothing, at most `limit` of them: the last tree, and how many passes
changed it, added to `done`. -/
def iterate (r : Replacement) (limit done : Nat) (e : Expr) : Option (Expr × Nat) :=
  match limit with
  | 0 => none
  | limit + 1 =>
    match r.pass e with
    | none => some (e, done)
    | some e' => iterate r limit (done + 1) e'

/-- Replace until nothing matches. -/
def normalize (r : Replacement) (limit : Int) (e : Expr) : Except FixpointError Expr :=
  if limit < 1 then .error (.badLimit limit)
  else
    match r.iterate limit.toNat 0 e with
    | some (e', _) => .ok e'
    | none => .error (.exhausted limit)

/-- What the search tells when it is watched. -/
def notes (r : Replacement) (limit : Int) (e : Expr) : List FixpointNote :=
  if limit < 1 then []
  else
    match r.iterate limit.toNat 0 e with
    | some (_, changes) =>
      (List.range' 1 changes).map .changed ++ [.reached (changes + 1)]
    | none => (List.range' 1 limit.toNat).map .changed ++ [.notReached limit]

end Replacement

end TreeRules
