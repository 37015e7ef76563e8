import TreeRules.Expr.Render

/-!
# Bindings: what a match found for the variables

A match binds each variable of the pattern to a `Value`: one tree, or the run of consecutive
children that a run marker stood for. `Bindings` keeps the names in the order in which they were
first bound; binding a name again changes its value and not its place. No name occurs twice, which
is a field of the type.

A match that fails has no bindings at all: its result is `none`, while a pattern without variables
that matches gives `some Bindings.empty`.
-/

namespace TreeRules

/-- What a name is bound to. -/
inductive Value where
  /-- one tree -/
  | one (tree : Expr)
  /-- consecutive children of a list -/
  | run (trees : List Expr)
  /-- nothing: the name is listed, and templates keep it as if it were not -/
  | vacant
deriving DecidableEq

namespace Value

/-- The text of a value; a run stands in brackets. -/
def render : Value → String
  | .one e => e.render
  | .run es => "[" ++ Expr.renderAll es ++ "]"
  | .vacant => "None"

/-- Is the value a run? -/
def isRun : Value → Bool
  | .run _ => true
  | _ => false

end Value

/-- Write a value for a name into a list of entries: over the name's entry, or behind all others. -/
def putEntry (name : String) (v : Value) : List (String × Value) → List (String × Value)
  | [] => [(name, v)]
  | (n, w) :: rest => if n = name then (n, v) :: rest else (n, w) :: putEntry name v rest

/-- Writing adds no name but the one written. -/
theorem mem_names_putEntry {name n : String} {v : Value} {entries : List (String × Value)} :
    n ∈ (putEntry name v entries).map Prod.fst ↔ n = name ∨ n ∈ entries.map Prod.fst := by
  induction entries with
  | nil => simp [putEntry]
  | cons e rest ih =>
    obtain ⟨m, w⟩ := e
    by_cases h : m = name
    · subst h; simp [putEntry]
    · simp only [putEntry, h, if_false, List.map_cons, List.mem_cons, ih]
      exact or_left_comm

/-- Writing keeps the names distinct. -/
theorem nodup_names_putEntry {name : String} {v : Value} {entries : List (String × Value)}
    (h : (entries.map Prod.fst).Nodup) : ((putEntry name v entries).map Prod.fst).Nodup := by
  induction entries with
  | nil => simp [putEntry]
  | cons e rest ih =>
    obtain ⟨m, w⟩ := e
    simp only [List.map_cons, List.nodup_cons] at h
    by_cases hm : m = name
    · subst hm; simpa [putEntry] using h
    · rw [putEntry, if_neg hm]
      simp only [List.map_cons, List.nodup_cons, mem_names_putEntry, not_or]
      exact ⟨⟨hm, h.1⟩, ih h.2⟩

/-- The written name has the written value. -/
theorem lookup_putEntry_self (name : String) (v : Value) (entries : List (String × Value)) :
    (putEntry name v entries).lookup name = some v := by
  induction entries with
  | nil => simp [putEntry]
  | cons e rest ih =>
    obtain ⟨n, w⟩ := e
    by_cases h : n = name
    · simp [putEntry, h]
    · have hne : (name == n) = false := by simpa using fun hn => h hn.symm
      simp [putEntry, h, List.lookup_cons, hne, ih]

/-- Every other name keeps its value. -/
theorem lookup_putEntry_of_ne {name n : String} (hne : n ≠ name) (v : Value)
    (entries : List (String × Value)) :
    (putEntry name v entries).lookup n = entries.lookup n := by
  have hnm : (n == name) = false := by simpa using hne
  induction entries with
  | nil => simp [putEntry, List.lookup_cons, hnm]
  | cons e rest ih =>
    obtain ⟨m, w⟩ := e
    by_cases h : m = name
    · subst h
      simp [putEntry, List.lookup_cons, hnm]
    · simp only [putEntry, h, if_false, List.lookup_cons, ih]

/-- Names and their values, in the order in which the names were first bound. -/
structure Bindings where
  /-- the names with their values -/
  entries : List (String × Value)
  /-- no name occurs twice -/
  nodup : (entries.map Prod.fst).Nodup

namespace Bindings

/-- Two bindings with the same entries are the same. -/
theorem ext {a b : Bindings} (h : a.entries = b.entries) : a = b := by
  cases a; cases b; cases h; rfl

instance : DecidableEq Bindings := fun a b =>
  decidable_of_iff (a.entries = b.entries) ⟨ext, fun h => h ▸ rfl⟩

/-- Nothing is bound. -/
def empty : Bindings := ⟨[], List.nodup_nil⟩

instance : Inhabited Bindings := ⟨empty⟩

/-- Bind a name; a value it had before is replaced. -/
def insert (b : Bindings) (name : String) (v : Value) : Bindings :=
  ⟨putEntry name v b.entries, nodup_names_putEntry b.nodup⟩

/-- Bind names one after another. -/
def ofEntries (entries : List (String × Value)) : Bindings :=
  entries.foldl (fun b e => b.insert e.1 e.2) empty

/-- The bound names, in order. -/
def names (b : Bindings) : List String := b.entries.map Prod.fst

/-- The values, in the order of their names. -/
def values (b : Bindings) : List Value := b.entries.map Prod.snd

/-- The number of bound names. -/
def size (b : Bindings) : Nat := b.entries.length

/-- The value of a name. -/
def find? (b : Bindings) (name : String) : Option Value := b.entries.lookup name

/-- Is the name bound? -/
def contains (b : Bindings) (name : String) : Bool := (b.find? name).isSome

/-- Is the name bound to a run? -/
def isRun (b : Bindings) (name : String) : Bool := ((b.find? name).map Value.isRun).getD false

@[simp] theorem find?_empty (name : String) : empty.find? name = none := rfl

@[simp] theorem find?_insert_self (b : Bindings) (name : String) (v : Value) :
    (b.insert name v).find? name = some v :=
  lookup_putEntry_self name v b.entries

theorem find?_insert_of_ne (b : Bindings) {name n : String} (hne : n ≠ name) (v : Value) :
    (b.insert name v).find? n = b.find? n :=
  lookup_putEntry_of_ne hne v b.entries

/-- Do two bindings give the same names the same values, in whatever order? -/
def sameAs (a b : Bindings) : Bool :=
  a.size == b.size && a.entries.all fun e => b.find? e.1 == some e.2

/-- The text of bindings. -/
def render (b : Bindings) : String :=
  "Bindings(\x7b" ++ ", ".intercalate (b.entries.map fun e => e.1 ++ ": " ++ e.2.render) ++ "\x7d)"

/-- Bind a name that may be bound already. Strict matching demands that it keeps its value. -/
def extend? (strict : Bool) (name : String) (v : Value) (b : Bindings) : Option Bindings :=
  if strict && (b.find? name).any (· != v) then none else some (b.insert name v)

end Bindings

/-- The result of a match: bindings, or none when it failed. -/
abbrev MatchResult := Option Bindings

/-- Why a name has no value in the result of a match. -/
inductive LookupError where
  /-- the match did not bind it -/
  | unbound (name : String)
  /-- the match failed -/
  | noMatch (name : String)

/-- The wording of a failed lookup. -/
def LookupError.message : LookupError → String
  | .unbound name => name
  | .noMatch name => "NoMatch has no binding for '" ++ name ++ "'"

namespace MatchResult

/-- The value of a name that has to be bound. -/
def value (r : MatchResult) (name : String) : Except LookupError Value :=
  match r with
  | none => .error (.noMatch name)
  | some b =>
    match b.find? name with
    | some v => .ok v
    | none => .error (.unbound name)

/-- The value of a name, or another value if it is not bound. -/
def valueD (r : MatchResult) (name : String) (default : Value) : Value :=
  (r.bind (·.find? name)).getD default

/-- Is the name bound? -/
def contains (r : MatchResult) (name : String) : Bool := r.any (·.contains name)

/-- The bound names; a failed match has none. -/
def names (r : MatchResult) : List String := r.elim [] Bindings.names

/-- The text of a result. -/
def render (r : MatchResult) : String := r.elim "NoMatch" Bindings.render

end MatchResult

end TreeRules
