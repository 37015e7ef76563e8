import TreeRules.Expr.Reader
import TreeRules.Rule.Basic
import TreeRules.Rule.Header
import TreeRules.Text.Lines

/-!
# Rule lines

A line holds a rule when, behind its header, it holds an arrow `=>` outside parentheses; the first
such arrow parts the pattern from the template. Inside a list the two characters are part of an
ordinary word. Blank lines and lines that begin with `#` hold no rule.

A text with several lines means its first rule.
-/

namespace TreeRules

/-- The offset of the first arrow outside parentheses, counted from `pos`, where `depth` lists are
open. -/
def arrowFrom (depth : Int) (pos : Nat) : List Char → Option Nat
  | [] => none
  | '(' :: cs => arrowFrom (depth + 1) (pos + 1) cs
  | ')' :: cs => arrowFrom (depth - 1) (pos + 1) cs
  | c :: cs =>
    if depth ≤ 0 ∧ c = '=' ∧ cs.head? = some '>' then some pos
    else arrowFrom depth (pos + 1) cs

/-- The offset of the arrow that makes a text a rule. -/
def arrow? (cs : List Char) : Option Nat := arrowFrom 0 0 cs

/-- How many more parentheses a text opens than it closes. -/
def openParens (cs : List Char) : Int := (cs.count '(' : Int) - cs.count ')'

/-- A line without its header, cut at its arrow. -/
structure SplitLine where
  /-- the name in the header -/
  name : Option String
  /-- the description in the header -/
  description : Option String
  /-- the text in front of the arrow -/
  pattern : List Char
  /-- the text behind the arrow -/
  template : List Char

/-- Take a rule line apart; a line that holds no rule cannot be. -/
def SplitLine.ofLine? (line : List Char) : Option SplitLine :=
  match Text.trim line with
  | [] => none
  | '#' :: _ => none
  | cs =>
    let headed := HeadedLine.ofLine cs
    (arrow? headed.rest).map fun offset =>
      ⟨headed.name, headed.description, headed.rest.take offset, headed.rest.drop (offset + 2)⟩

/-- Does the line hold a rule? -/
def isRuleLine (line : List Char) : Bool := (SplitLine.ofLine? line).isSome

/-- Why a text gives no rule. -/
inductive RuleError where
  /-- none of its lines holds one -/
  | noRule (text : String)
  /-- the pattern or the template of the first one cannot be read -/
  | unreadable (e : ReadError)

/-- The wording of a text that gives no rule. -/
def RuleError.message : RuleError → String
  | .noRule text => "No rule found in: " ++ Text.quoted text
  | .unreadable e => e.message

namespace Rule

/-- Read the rule on a line, if the line holds one. The pattern is read first. -/
def ofLine (line : List Char) : Except ReadError (Option Rule) :=
  match SplitLine.ofLine? line with
  | none => .ok none
  | some split => do
    let pattern ← Expr.parseChars split.pattern
    let template ← Expr.parseChars split.template
    return some { pattern, template, name := split.name, description := split.description }

/-- The first rule on these lines; nothing behind it is looked at. -/
def ofLines : List (List Char) → Except ReadError (Option Rule)
  | [] => .ok none
  | line :: lines =>
    match ofLine line with
    | .ok none => ofLines lines
    | found => found

/-- The first rule of a text. -/
def ofText (text : String) : Except RuleError Rule :=
  match ofLines (Text.linesAt Text.isNewline text.toList) with
  | .ok (some rule) => .ok rule
  | .ok none => .error (.noRule text)
  | .error e => .error (.unreadable e)

end Rule

end TreeRules
