import TreeRules.Expr.Reader

/-!
# Building trees by hand

A `Blueprint` says how a tree is put together from texts, names and parts. Building it checks every
name. The parts of a list are built first, from left to right; the plain texts among them become
atoms only afterwards, so that a fault in a part is reported before a fault in a text.
-/

namespace TreeRules

/-- How a tree is put together. -/
inductive Blueprint where
  /-- the tree of a text -/
  | read (text : String)
  /-- an atom of this name -/
  | atom (name : Datum)
  /-- a text that becomes an atom once the other parts of its list are built -/
  | plain (name : String)
  /-- a list of these parts -/
  | list (parts : List Blueprint)
  /-- a wildcard of this kind -/
  | wildcard (kind : String)
  /-- a variable of this name and kind -/
  | variable (name : Datum) (kind : String)

/-- Why a tree cannot be built. -/
inductive BuildError where
  /-- a text cannot be read -/
  | read (e : ReadError)
  /-- a value cannot be a name -/
  | name (e : TokenError)
  /-- there is no such kind of marker -/
  | kind (given : String)

/-- The kinds of markers by name, in the order in which messages list them. -/
def Span.kinds : List (String × Span) :=
  [("single", .one), ("seq", .oneOrMore), ("null_seq", .zeroOrMore)]

/-- The kind that is meant where none is given. -/
def Span.defaultKind : String := "single"

/-- The wording of a failed construction. -/
def BuildError.message : BuildError → String
  | .read e => e.message
  | .name e => e.message
  | .kind given =>
    "Unknown wildcard kind: " ++ given ++ ". Valid options: "
      ++ ", ".intercalate (Span.kinds.map Prod.fst)

namespace Blueprint

/-- A name for this role. -/
def token (role : NameRole) (name : Datum) : Except BuildError Token :=
  (Token.ofDatum? role name).mapError .name

/-- The span of this kind. -/
def span (kind : String) : Except BuildError Span :=
  match Span.kinds.lookup kind with
  | some s => .ok s
  | none => .error (.kind kind)

/-- A part of a list: a built tree, or a text still to be made an atom. -/
def part : String ⊕ Expr → Except BuildError Expr
  | .inl name => (token .atom (.text name)).map .atom
  | .inr e => .ok e

mutual

/-- Build a tree. The kind of a variable is checked before its name. -/
def build : Blueprint → Except BuildError Expr
  | .read text => (Expr.parse text).mapError .read
  | .atom name => (token .atom name).map .atom
  | .plain name => (token .atom (.text name)).map .atom
  | .list parts => do
    let built ← buildParts parts
    return .list (← built.mapM part)
  | .wildcard kind => do
    return .marker none (← span kind)
  | .variable name kind => do
    let s ← span kind
    return .marker (some (← token .variable name)) s

/-- Build the parts of a list, leaving its plain texts alone. -/
def buildParts : List Blueprint → Except BuildError (List (String ⊕ Expr))
  | [] => .ok []
  | .plain name :: parts => do
    return .inl name :: (← buildParts parts)
  | b :: parts => do
    let e ← build b
    return .inr e :: (← buildParts parts)

end

end Blueprint

end TreeRules
