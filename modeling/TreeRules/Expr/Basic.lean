import TreeRules.Token

/-!
# Expression trees

A tree is an atom, a list of trees, or a *marker*. Markers make sense in patterns only, where each
stands for a stretch of the subject: one tree, one or more, or zero or more consecutive children of
a list. A marker may have a name, and then it is a variable that the stretch is bound to; without
one it is a wildcard. Lists may be empty, and markers may stand anywhere, so patterns, templates and
subjects are all values of the one type `Expr`.

Replacing shares subtrees instead of copying them, and a rule that doubles its argument makes trees
whose text would not fit any memory while their shared form is small. Equality of trees therefore
first asks whether both sides are the same object (`withPtrEqDecEq`), which settles shared parts
without walking them.
-/

namespace TreeRules

/-- How many consecutive trees a marker stands for. -/
inductive Span where
  /-- exactly one -/
  | one
  /-- one or more -/
  | oneOrMore
  /-- zero or more -/
  | zeroOrMore
deriving DecidableEq

/-- The number of underscores a marker of this span is written with. -/
def Span.underscores : Span → Nat
  | .one => 1
  | .oneOrMore => 2
  | .zeroOrMore => 3

/-- An expression tree. -/
inductive Expr where
  /-- a name, compared by equality only -/
  | atom (name : Token)
  /-- an ordered sequence of trees -/
  | list (children : List Expr)
  /-- a wildcard, or a variable when it has a name -/
  | marker (name : Option Token) (span : Span)

namespace Expr

instance : Inhabited Expr := ⟨.list []⟩

mutual

/-- Equality of trees is decidable, at once where both are the same object. -/
def decEq (a b : Expr) : Decidable (a = b) :=
  withPtrEqDecEq a b fun _ =>
    match a, b with
    | .atom x, .atom y => decidable_of_iff (x = y) (by simp)
    | .list xs, .list ys =>
      match decEqAll xs ys with
      | .isTrue h => .isTrue (by rw [h])
      | .isFalse h => .isFalse (by simpa using h)
    | .marker x s, .marker y t => decidable_of_iff (x = y ∧ s = t) (by simp)
    | .atom _, .list _ => .isFalse (by simp)
    | .atom _, .marker _ _ => .isFalse (by simp)
    | .list _, .atom _ => .isFalse (by simp)
    | .list _, .marker _ _ => .isFalse (by simp)
    | .marker _ _, .atom _ => .isFalse (by simp)
    | .marker _ _, .list _ => .isFalse (by simp)

/-- Equality of lists of trees is decidable. -/
def decEqAll (xs ys : List Expr) : Decidable (xs = ys) :=
  match xs, ys with
  | [], [] => .isTrue rfl
  | x :: xs, y :: ys =>
    match decEq x y with
    | .isFalse h => .isFalse (by simp [h])
    | .isTrue h =>
      match decEqAll xs ys with
      | .isTrue hs => .isTrue (by rw [h, hs])
      | .isFalse hs => .isFalse (by simp [hs])
  | [], _ :: _ => .isFalse (by simp)
  | _ :: _, [] => .isFalse (by simp)

end

instance : DecidableEq Expr := decEq

/-! ## Kinds of trees -/

/-- Is it a list? -/
def isList : Expr → Bool
  | .list _ => true
  | _ => false

/-- Is it an atom? -/
def isAtom : Expr → Bool
  | .atom _ => true
  | _ => false

/-- Is it a marker, with or without a name? -/
def isMarker : Expr → Bool
  | .marker _ _ => true
  | _ => false

/-- Is it a marker without a name? -/
def isWildcard : Expr → Bool
  | .marker none _ => true
  | _ => false

/-- Is it a marker with a name? -/
def isVariable : Expr → Bool
  | .marker (some _) _ => true
  | _ => false

/-- Does it stand for a run of children of a list, rather than for one tree? -/
def isRunMarker : Expr → Bool
  | .marker _ .one => false
  | .marker _ _ => true
  | _ => false

/-- Can it stand for an empty run? -/
def isNullable : Expr → Bool
  | .marker _ .zeroOrMore => true
  | _ => false

mutual

/-- Does a marker stand anywhere in the tree? -/
def hasMarkers : Expr → Bool
  | .atom _ => false
  | .list cs => anyHasMarkers cs
  | .marker _ _ => true

/-- Does a marker stand anywhere in one of the trees? -/
def anyHasMarkers : List Expr → Bool
  | [] => false
  | e :: es => hasMarkers e || anyHasMarkers es

end

/-- The children of a list; other trees have none. -/
def children : Expr → List Expr
  | .list cs => cs
  | _ => []

end Expr

end TreeRules
