import TreeRules.Replacement.Fixpoint

/-!
# Rules

A rule is a replacement that may have a name and a description, and that knows how many passes it
may take. Its text has an arrow between pattern and template, and a header in front if the rule has
a name: `@name "description": pattern => template`.

There are three strategies for applying a rule: at the root only, in a single pass, or in passes
until nothing matches.
-/

namespace TreeRules

/-- A replacement with a name, a description and a limit of its own. -/
structure Rule extends Replacement where
  /-- what the rule is called, if it is called anything -/
  name : Option String := none
  /-- what the rule does, in words -/
  description : Option String := none
  /-- the most passes it may take to a fixpoint -/
  limit : Int := defaultLimit

/-- How a rule is applied. -/
inductive Strategy where
  /-- at the root, if it matches there -/
  | once
  /-- in a single pass -/
  | all
  /-- in passes until nothing matches -/
  | fixpoint
deriving DecidableEq

namespace Strategy

/-- The strategies, in the order in which messages list them. -/
def every : List Strategy := [.once, .all, .fixpoint]

/-- The name of a strategy. -/
def name : Strategy → String
  | .once => "once"
  | .all => "all"
  | .fixpoint => "fixpoint"

/-- The names of all strategies. -/
def names : String := ", ".intercalate (every.map name)

/-- The strategy of this name. -/
def ofName? (s : String) : Option Strategy := every.find? (·.name == s)

@[simp] theorem ofName?_name (s : Strategy) : ofName? s.name = some s := by
  cases s <;> decide +kernel

/-- The name of a setting that may be without a strategy: a pair of brackets shows that there is
none. -/
def nameOf (s : Option Strategy) : String := s.elim "[]" name

/-- The wording for a name that no strategy has. -/
def unknown (s : String) : String := "Unknown strategy: " ++ s ++ ". Valid options: " ++ names

end Strategy

namespace Rule

/-- The header of a rule's text; a rule without a name has none. -/
def header (r : Rule) : String :=
  match r.name.filter (· != "") with
  | none => ""
  | some name =>
    let description := (r.description.filter (· != "")).elim "" fun d => " \"" ++ d ++ "\""
    "@" ++ name ++ description ++ ": "

/-- The text of a rule. -/
def render (r : Rule) : String := r.header ++ r.pattern.render ++ " => " ++ r.template.render

instance : ToString Rule := ⟨render⟩

/-- Apply a rule. Where nothing matches, the tree stays as it is. -/
def simplify (r : Rule) (strategy : Strategy) (e : Expr) : Except FixpointError Expr :=
  match strategy with
  | .once => .ok ((r.atRoot e).getD e)
  | .all => .ok ((r.pass e).getD e)
  | .fixpoint => r.normalize r.limit e

/-- What a watched application of the rule tells. Only the search for a fixpoint tells anything. -/
def notes (r : Rule) (strategy : Strategy) (e : Expr) : List FixpointNote :=
  match strategy with
  | .fixpoint => r.toReplacement.notes r.limit e
  | _ => []

end Rule

end TreeRules
