import TreeRules.Expr.Lexeme

/-!
# Reading trees

Trees are read from lexemes, left to right, with the lists that are open and not yet closed kept in
`Unfinished`. Feeding a lexeme either opens a list, closes the innermost one, or adds a leaf to it;
what cannot be fed is reported at its offset. Two readers drive the same `feed`:

* `readAll` feeds every lexeme and answers all top-level trees (a text may hold none);
* `readFirst` stops at the first finished tree and answers it with the lexemes behind it. With the
  demand that there are none, it reads a text that holds exactly one tree (`parse`).

An error at the very end of the text means that the text is only incomplete: an open list, or no
tree at all.
-/

namespace TreeRules

/-- The kinds of error in the text of a tree. -/
inductive ReadError.Kind where
  /-- a parenthesis without its partner -/
  | unbalanced
  /-- a text without a tree -/
  | empty
  /-- a word that makes no leaf -/
  | invalidMarker
  /-- something behind the one tree -/
  | trailing
  /-- a place where no tree can start -/
  | noStart
deriving DecidableEq

/-- What messages call the kind of error. -/
def ReadError.Kind.label : ReadError.Kind → String
  | .unbalanced => "unbalanced parentheses"
  | .empty => "empty input"
  | .invalidMarker => "invalid pattern"
  | .trailing => "unexpected input after expression"
  | .noStart => "internal parser error"

/-- The code of the kind of error. -/
def ReadError.Kind.code : ReadError.Kind → String
  | .unbalanced => "UNBALANCED_PARENS"
  | .empty => "EMPTY_INPUT"
  | .invalidMarker => "INVALID_PATTERN"
  | .trailing => "TRAILING_INPUT"
  | .noStart => "INTERNAL"

/-- An error in the text of a tree. -/
structure ReadError where
  /-- what is wrong -/
  kind : ReadError.Kind
  /-- the offset, in characters, where it was noticed -/
  position : Nat
deriving DecidableEq

/-- The wording of a reading error. -/
def ReadError.message (e : ReadError) : String :=
  e.kind.label ++ " at position " ++ toString e.position

/-- The span written as this suffix. -/
def Span.ofSuffix? : List Char → Option Span
  | ['_'] => some .one
  | ['_', '_'] => some .oneOrMore
  | ['_', '_', '_'] => some .zeroOrMore
  | _ => none

/-- A suffix of as many underscores as a span is written with means that span. -/
@[simp] theorem Span.ofSuffix?_replicate (s : Span) :
    Span.ofSuffix? (List.replicate s.underscores '_') = some s := by
  cases s <;> rfl

namespace Expr

/-- The leaf that a word at offset `pos` makes: an atom without any underscore, or else a marker,
whose underscores, one to three, end the word. A word that starts with a character no word can hold
makes no leaf at all. -/
def leaf (pos : Nat) (word : List Char) : Except ReadError Expr :=
  let name := word.takeWhile (· != '_')
  match word.drop name.length with
  | [] => (Token.ofChars? name).elim (.error ⟨.noStart, pos⟩) fun t => .ok (.atom t)
  | suffix =>
    match Span.ofSuffix? suffix with
    | none => .error ⟨.invalidMarker, pos + name.length⟩
    | some span =>
      if name.isEmpty then .ok (.marker none span)
      else
        (Token.ofChars? name).elim (.error ⟨.noStart, pos⟩) fun t => .ok (.marker (some t) span)

/-- Lists opened and not yet closed. In each, the children read so far stand last first. -/
structure Unfinished where
  /-- the trees read in the innermost open list, or at top level when none is open -/
  inner : List Expr
  /-- the lists around it, innermost first; the last one is the top level -/
  outer : List (List Expr)

namespace Unfinished

/-- Nothing is read yet. -/
def start : Unfinished := ⟨[], []⟩

/-- Add a finished tree. -/
def push (u : Unfinished) (e : Expr) : Unfinished := ⟨e :: u.inner, u.outer⟩

/-- Read one more lexeme. -/
def feed (u : Unfinished) (t : Located) : Except ReadError Unfinished :=
  match t.lexeme with
  | .opening => .ok ⟨[], u.inner :: u.outer⟩
  | .closing =>
    match u.outer with
    | [] => .error ⟨.unbalanced, t.start⟩
    | around :: outer => .ok ⟨.list u.inner.reverse :: around, outer⟩
  | .word cs => (leaf t.start cs).map u.push

/-- The top-level trees, if no list is open at the end of the text. -/
def finish (stop : Nat) (u : Unfinished) : Except ReadError (List Expr) :=
  match u.outer with
  | [] => .ok u.inner.reverse
  | _ :: _ => .error ⟨.unbalanced, stop⟩

end Unfinished

/-- Read all lexemes up to the end of the text, at offset `stop`. -/
def readAll (stop : Nat) (u : Unfinished) : List Located → Except ReadError (List Expr)
  | [] => u.finish stop
  | t :: ts =>
    match u.feed t with
    | .ok u => readAll stop u ts
    | .error e => .error e

/-- Read up to the first finished top-level tree: the tree, the offset behind it, and the lexemes
that follow. -/
def readFirst (stop : Nat) (u : Unfinished) :
    List Located → Except ReadError (Expr × Nat × List Located)
  | [] => .error ⟨if u.outer.isEmpty then .empty else .unbalanced, stop⟩
  | t :: ts =>
    match u.feed t with
    | .error e => .error e
    | .ok ⟨[e], []⟩ => .ok (e, t.stop, ts)
    | .ok u => readFirst stop u ts

/-- All top-level trees of a text. -/
def parseAllChars (cs : List Char) : Except ReadError (List Expr) :=
  readAll cs.length .start (lexemes cs)

/-- The tree of a text that holds exactly one. -/
def parseChars (cs : List Char) : Except ReadError Expr :=
  match readFirst cs.length .start (lexemes cs) with
  | .error e => .error e
  | .ok (e, _, []) => .ok e
  | .ok (_, _, t :: _) =>
    .error ⟨if t.lexeme = .closing then .unbalanced else .trailing, t.start⟩

/-- All top-level trees of a text. -/
def parseAll (s : String) : Except ReadError (List Expr) := parseAllChars s.toList

/-- The tree of a text that holds exactly one. -/
def parse (s : String) : Except ReadError Expr := parseChars s.toList

/-- A tree read from the middle of a text. -/
structure Excerpt where
  /-- the tree -/
  expr : Expr
  /-- the offset behind it -/
  stop : Nat
  /-- whether that is the end of the text -/
  atEnd : Bool

/-- Read the tree that starts exactly at offset `pos`; a blank there starts none. -/
def parseAt (cs : List Char) (pos : Nat) : Except ReadError Excerpt :=
  let rest := cs.drop pos
  if (rest.head?.map Text.isBlank).getD false then .error ⟨.noStart, pos⟩
  else
    (readFirst (pos + rest.length) .start (lexemesFrom pos rest)).map fun (e, stop, _) =>
      ⟨e, stop, stop ≥ cs.length⟩

end Expr

end TreeRules
