import TreeRules.Rule.Line
import TreeRules.Trace

/-!
# A tour of the library

Five short sections that show, on small trees, how matching binds variables, how templates are
filled in, the three ways of replacing, a rule with its trace, and the errors that can come up.
-/

namespace TreeRules

/-- A section of the tour. -/
inductive Tour where
  /-- matching and bindings -/
  | matching
  /-- filling in templates -/
  | binding
  /-- the three ways of replacing -/
  | replacing
  /-- rules and traces -/
  | rules
  /-- errors -/
  | errors
deriving DecidableEq

namespace Tour

/-- The sections by name, in order. -/
def sections : List (String × Tour) :=
  [("matching", .matching), ("binding", .binding), ("rewriting", .replacing), ("rules", .rules),
    ("errors", .errors)]

/-- A text filled up with spaces to a width. -/
def padded (width : Nat) (s : String) : String := s.pushn ' ' (width - s.length)

/-- The heading of a section. -/
def heading (title : String) : List String :=
  let bar := "".pushn '=' 60
  ["", bar, " " ++ title, bar]

/-- The tree of a text that is known to hold one. -/
def tree (s : String) : Expr := ((Expr.parse s).toOption).getD default

/-- The text of a tree, or the message that there is none. -/
def shown {ε : Type} (message : ε → String) : Except ε Expr → String
  | .ok e => e.render
  | .error e => message e

/-- The replacement that the section on replacing uses. -/
def xToY : Replacement := { pattern := tree "(x a_)", template := tree "(y a)" }

/-- The lines of the section on matching. -/
def matchingLines : List String :=
  let examples :=
    [("(x (y z))", "(_ a_)"), ("(1 2 3)", "(x__ y_)"), ("(f)", "(f xs___)"), ("(f 1 2)", "(g ___)")]
  examples.map fun (subject, pattern) =>
    "  " ++ padded 12 subject ++ " ~ " ++ padded 12 pattern ++ " => "
      ++ MatchResult.render (Expr.matchAgainst false (tree pattern) (tree subject))

/-- The lines of the section on templates. -/
def bindingLines : List String :=
  let found := Expr.matchAgainst false (tree "(list xs___)") (tree "(list 1 2 3)")
  ["(vec xs)", "(pair (first xs) last)", "xs"].map fun template =>
    "  " ++ padded 24 template ++ " => " ++ shown id (MatchResult.fill found (tree template))

/-- The lines of the section on replacing. -/
def replacingLines : List String :=
  let all := xToY.pass (tree "((x r) (x s))")
  ["  replace_once (x z)          => " ++ Trace.endText (xToY.atRoot (tree "(x z)")),
    "  replace_all ((x r) (x s))   => " ++ Trace.endText all
      ++ " (changed=" ++ (Datum.bool all.isSome).written ++ ")",
    "  until fixpoint (x (x (x z))) => "
      ++ shown FixpointError.message (xToY.normalize defaultLimit (tree "(x (x (x z)))"))]

/-- The lines of the section on rules. -/
def rulesLines : List String :=
  match Rule.ofText
      "@flatten \"Splice nested lists\": (list a___ (list b___) c___) => (list a b c)" with
  | .error e => [e.message]
  | .ok flatten =>
    match flatten.trace .fixpoint (tree "(list 1 (list 2 (list 3)) 4)") with
    | .error e => [e.message]
    | .ok trace => ["  " ++ flatten.render, trace.render .chain]

/-- The lines of the section on errors. -/
def errorsLines : List String :=
  let unread := ["(a ", "", "x____"].filterMap fun text =>
    match Expr.parse text with
    | .error e =>
      some ("  " ++ padded 10 (Text.quoted text) ++ " => " ++ e.kind.code ++ ": " ++ e.message)
    | .ok _ => none
  let doubling : Replacement := { pattern := tree "x_", template := tree "(x x)" }
  unread ++ match doubling.normalize 20 (tree "x") with
    | .error e => ["  x_ => (x x) => " ++ e.message]
    | .ok _ => []

/-- The lines of a section. -/
def lines : Tour → List String
  | .matching => heading "Matching" ++ matchingLines
  | .binding => heading "Binding" ++ bindingLines
  | .replacing => heading "Rewriting" ++ replacingLines
  | .rules => heading "Rules and Tracing" ++ rulesLines
  | .errors => heading "Errors" ++ errorsLines

/-- A section as it is shown. -/
def render (t : Tour) : String := String.join (t.lines.map (· ++ "\n"))

end Tour

end TreeRules
