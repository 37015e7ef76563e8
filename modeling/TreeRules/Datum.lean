import TreeRules.Decimal
import TreeRules.Text.Quoted

/-!
# Data offered as names

Whoever builds a tree by hand may offer any plain value where a name belongs: a number, a truth
value, a list. Only a text can be a name, and the message that refuses the rest shows what was
offered, in the notation below: `None`, `True`, `3`, `1.5`, `['a', 1]`, `{'a': 1}`.
-/

namespace TreeRules

/-- A plain value. -/
inductive Datum where
  /-- no value at all -/
  | null
  /-- a truth value -/
  | bool (value : Bool)
  /-- a whole number -/
  | int (value : Int)
  /-- a number in floating point -/
  | float (value : Float)
  /-- a text, the only value that can be a name -/
  | text (value : String)
  /-- a list of values -/
  | list (items : List Datum)
  /-- named values, in order -/
  | record (fields : List (String × Datum))

namespace Datum

instance : Inhabited Datum := ⟨.null⟩

mutual

/-- A value as messages show it. -/
def written : Datum → String
  | .null => "None"
  | .bool true => "True"
  | .bool false => "False"
  | .int n => toString n
  | .float x => Decimal.ofFloat x
  | .text s => Text.quoted s
  | .list items => "[" ++ ", ".intercalate (writtenItems items) ++ "]"
  | .record fields => "\x7b" ++ ", ".intercalate (writtenFields fields) ++ "\x7d"

/-- The items of a list as messages show them. -/
def writtenItems : List Datum → List String
  | [] => []
  | d :: ds => written d :: writtenItems ds

/-- The fields of a record as messages show them. -/
def writtenFields : List (String × Datum) → List String
  | [] => []
  | (name, d) :: fields => (Text.quoted name ++ ": " ++ written d) :: writtenFields fields

end

end Datum

end TreeRules
