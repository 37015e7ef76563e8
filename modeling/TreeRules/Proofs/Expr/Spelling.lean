import TreeRules.Expr.Reader
import TreeRules.Expr.Render
import TreeRules.Proofs.Expr.Lexing

/-!
# Trees spelled in lexemes, and read from them

A tree is spelled as a word if it is a leaf, and as its children between parentheses if it is a
list. Lexemes that spell trees are read as these trees. Both readers go through a list in the same
way: until its last parenthesis a list is open, and while a list is open a reader only feeds
(`Steady`). So `Steady.tree` and `Steady.children` are proved for both at once, and the readers are
told apart by what they do with a finished tree at top level: `readAll_spellings` goes on,
`readFirst_spelling` stops.
-/

namespace TreeRules

namespace Expr

mutual

/-- The lexemes of a tree. -/
def spelling : Expr → List Lexeme
  | .atom x => [.word x.chars]
  | .list cs => .opening :: (spellings cs ++ [.closing])
  | .marker x s => [.word (markerChars x s)]

/-- The lexemes of several trees, one tree after another. -/
def spellings : List Expr → List Lexeme
  | [] => []
  | e :: es => spelling e ++ spellings es

end

@[simp] theorem spelling_atom (x : Token) : spelling (.atom x) = [.word x.chars] := by
  rw [spelling]

@[simp] theorem spelling_list (cs : List Expr) :
    spelling (.list cs) = .opening :: (spellings cs ++ [.closing]) := by
  rw [spelling]

@[simp] theorem spelling_marker (x : Option Token) (s : Span) :
    spelling (.marker x s) = [.word (markerChars x s)] := by
  rw [spelling]

@[simp] theorem spellings_nil : spellings [] = [] := by
  rw [spellings]

@[simp] theorem spellings_cons (e : Expr) (es : List Expr) :
    spellings (e :: es) = spelling e ++ spellings es := by
  rw [spellings]

/-! ## Leaves -/

/-- No character of a name is an underscore. -/
theorem ne_underscore_of_mem {x : Token} {c : Char} (hc : c ∈ x.chars) : c ≠ '_' := by
  rintro rfl
  exact absurd (List.all_eq_true.mp x.allowed _ hc) (by decide)

/-- The name is the part of a word in front of the underscores. -/
theorem takeWhile_name {name : List Char} (hname : ∀ c ∈ name, c ≠ '_') (k : Nat) :
    (name ++ List.replicate k '_').takeWhile (· != '_') = name := by
  rw [List.takeWhile_append_of_pos fun c hc => by simpa using hname c hc]
  cases k <;> simp [List.replicate_succ]

/-- A word is its name, without underscores, and what follows it. -/
theorem name_append_suffix (word : List Char) :
    word.takeWhile (· != '_') ++ word.drop (word.takeWhile (· != '_')).length = word :=
  List.prefix_iff_eq_append.mp (List.takeWhile_prefix _)

theorem underscore_notMem_takeWhile (word : List Char) : '_' ∉ word.takeWhile (· != '_') := by
  intro hmem
  have hholds := List.all_eq_true.mp (List.all_takeWhile (l := word) (p := (· != '_'))) _ hmem
  simp at hholds

/-- The word of an atom makes the atom. -/
theorem leaf_atom (pos : Nat) (x : Token) : leaf pos x.chars = .ok (.atom x) := by
  have hname : x.chars.takeWhile (· != '_') = x.chars := by
    simpa using takeWhile_name (fun c => ne_underscore_of_mem) 0
  simp [leaf, hname]

/-- The word of a marker makes the marker. -/
theorem leaf_marker (pos : Nat) (x : Option Token) (s : Span) :
    leaf pos (markerChars x s) = .ok (.marker x s) := by
  have hmem : ∀ c ∈ x.elim [] Token.chars, c ≠ '_' := by
    intro c hc
    cases x with
    | none => cases hc
    | some x => exact ne_underscore_of_mem hc
  have hname := takeWhile_name hmem s.underscores
  have hsuffix : (markerChars x s).drop (x.elim [] Token.chars).length =
      List.replicate s.underscores '_' := List.drop_left
  rw [leaf, markerChars, hname, ← markerChars, hsuffix]
  split
  · rename_i hnil
    cases s <;> cases hnil
  · rw [Span.ofSuffix?_replicate]
    cases x with
    | none => rfl
    | some x => simp [x.ne_nil]

/-! ## Reading on while a list is open -/

namespace Unfinished

variable {u v : Unfinished} {t : Located} {word : List Char} {e : Expr}

/-- Open one more list. -/
def opened (u : Unfinished) : Unfinished := ⟨[], u.inner :: u.outer⟩

theorem outer_opened (u : Unfinished) : u.opened.outer ≠ [] := List.cons_ne_nil _ _

/-- Add several finished trees, one after another. -/
def pushAll (u : Unfinished) (es : List Expr) : Unfinished := ⟨es.reverse ++ u.inner, u.outer⟩

@[simp] theorem pushAll_nil (u : Unfinished) : u.pushAll [] = u := rfl

@[simp] theorem pushAll_cons (u : Unfinished) (e : Expr) (es : List Expr) :
    u.pushAll (e :: es) = (u.push e).pushAll es := by
  simp [pushAll, push]

theorem feed_opening (u : Unfinished) (ht : t.lexeme = .opening) : u.feed t = .ok u.opened := by
  simp only [feed, ht, opened]

theorem feed_closing_nil (ht : t.lexeme = .closing) (inner : List Expr) :
    feed ⟨inner, []⟩ t = .error ⟨.unbalanced, t.start⟩ := by
  simp only [feed, ht]

theorem feed_closing_cons (ht : t.lexeme = .closing) (inner around : List Expr)
    (outer : List (List Expr)) :
    feed ⟨inner, around :: outer⟩ t = .ok ⟨.list inner.reverse :: around, outer⟩ := by
  simp only [feed, ht]

/-- The parenthesis that closes a list adds the list to what was read around it. -/
theorem feed_closing (u : Unfinished) (ht : t.lexeme = .closing) (cs : List Expr) :
    (u.opened.pushAll cs).feed t = .ok (u.push (.list cs)) := by
  simp [feed, ht, opened, pushAll, push]

theorem feed_eq_map_leaf (u : Unfinished) (ht : t.lexeme = .word word) :
    u.feed t = (leaf t.start word).map u.push := by
  simp only [feed, ht]

theorem feed_word (u : Unfinished) (ht : t.lexeme = .word word)
    (he : leaf t.start word = .ok e) : u.feed t = .ok (u.push e) := by
  rw [u.feed_eq_map_leaf ht, he]
  rfl

/-- What feeding a lexeme does, unless it is refused. -/
inductive Fed : Unfinished → Located → Unfinished → Prop where
  /-- a list is opened -/
  | opening (u : Unfinished) {t : Located} (ht : t.lexeme = .opening) : Fed u t u.opened
  /-- the innermost list is closed, and added to what was read around it -/
  | closing {t : Located} (ht : t.lexeme = .closing) (inner around : List Expr)
      (outer : List (List Expr)) :
      Fed ⟨inner, around :: outer⟩ t ⟨.list inner.reverse :: around, outer⟩
  /-- the leaf that a word makes is added -/
  | word (u : Unfinished) {t : Located} {word : List Char} {e : Expr}
      (ht : t.lexeme = .word word) (he : leaf t.start word = .ok e) : Fed u t (u.push e)

theorem fed_of_feed (h : u.feed t = .ok v) : Fed u t v := by
  cases ht : t.lexeme with
  | opening =>
    rw [u.feed_opening ht] at h
    cases h
    exact .opening u ht
  | closing =>
    obtain ⟨inner, _ | ⟨around, outer⟩⟩ := u
    · rw [feed_closing_nil ht] at h
      cases h
    · rw [feed_closing_cons ht] at h
      cases h
      exact .closing ht inner around outer
  | word word =>
    rw [u.feed_eq_map_leaf ht] at h
    cases hleaf : leaf t.start word with
    | error err =>
      rw [hleaf] at h
      cases h
    | ok e =>
      rw [hleaf] at h
      cases h
      exact .word u ht hleaf

end Unfinished

/-- A reader that only feeds as long as this leaves a list open. -/
def Steady {α : Type} (read : Unfinished → List Located → α) : Prop :=
  ∀ ⦃u u' t⦄, u.feed t = .ok u' → u'.outer ≠ [] → ∀ ts, read u (t :: ts) = read u' ts

/-- Feeding goes on, whatever is open. -/
theorem readAll_of_feed {u u' : Unfinished} {t : Located} (h : u.feed t = .ok u') (stop : Nat)
    (ts : List Located) : readAll stop u (t :: ts) = readAll stop u' ts := by
  rw [readAll, h]

theorem steady_readAll (stop : Nat) : Steady (readAll stop) :=
  fun _ _ _ h _ ts => readAll_of_feed h stop ts

theorem steady_readFirst (stop : Nat) : Steady (readFirst stop) := by
  intro u u' t h hopen ts
  rw [readFirst, h]
  obtain ⟨inner, _ | ⟨around, outer⟩⟩ := u'
  · exact absurd rfl hopen
  · rcases inner with _ | ⟨e, _ | ⟨e', inner⟩⟩ <;> rfl

mutual

/-- A steady reader comes to the last lexeme of a tree, and that one adds the tree. -/
theorem Steady.tree {α : Type} {read : Unfinished → List Located → α} (hread : Steady read)
    {e : Expr} {u : Unfinished} {ts : List Located} (h : ts.map Located.lexeme = e.spelling) :
    ∃ v t, v.feed t = .ok (u.push e) ∧ ∀ rest, read u (ts ++ rest) = read v (t :: rest) := by
  match e with
  | .atom x =>
    rw [spelling_atom] at h
    obtain ⟨t, rfl, ht⟩ := List.map_eq_singleton_iff.mp h
    exact ⟨u, t, u.feed_word ht (leaf_atom t.start x), fun _ => rfl⟩
  | .marker x s =>
    rw [spelling_marker] at h
    obtain ⟨t, rfl, ht⟩ := List.map_eq_singleton_iff.mp h
    exact ⟨u, t, u.feed_word ht (leaf_marker t.start x s), fun _ => rfl⟩
  | .list cs =>
    rw [spelling_list] at h
    obtain ⟨first, ts, rfl, hfirst, h⟩ := List.map_eq_cons_iff.mp h
    obtain ⟨inside, last, rfl, hinside, hlast⟩ := List.map_eq_append_iff.mp h
    obtain ⟨last, rfl, hclose⟩ := List.map_eq_singleton_iff.mp hlast
    -- from its first to its last parenthesis the list is open
    refine ⟨u.opened.pushAll cs, last, u.feed_closing hclose cs, fun rest => ?_⟩
    rw [List.cons_append, hread (u.feed_opening hfirst) u.outer_opened, List.append_assoc]
    exact Steady.children hread u.outer_opened hinside _

/-- Where a list is open, a steady reader adds the trees that the lexemes spell. -/
theorem Steady.children {α : Type} {read : Unfinished → List Located → α} (hread : Steady read)
    {es : List Expr} {u : Unfinished} {ts : List Located} (hu : u.outer ≠ [])
    (h : ts.map Located.lexeme = spellings es) (rest : List Located) :
    read u (ts ++ rest) = read (u.pushAll es) rest := by
  match es with
  | [] =>
    rw [spellings_nil] at h
    obtain rfl := List.map_eq_nil_iff.mp h
    rfl
  | e :: es =>
    rw [spellings_cons] at h
    obtain ⟨ts₁, ts₂, rfl, h₁, h₂⟩ := List.map_eq_append_iff.mp h
    obtain ⟨v, t, hfeed, hlast⟩ := Steady.tree hread (u := u) h₁
    rw [List.append_assoc, hlast, hread hfeed hu, Unfinished.pushAll_cons]
    exact Steady.children hread (u := u.push e) hu h₂ rest

end

/-! ## The two readers -/

/-- At top level, too, reading all adds the trees that the lexemes spell, and goes on. -/
theorem readAll_spellings {stop : Nat} {u : Unfinished} {es : List Expr} {ts : List Located}
    (h : ts.map Located.lexeme = spellings es) (rest : List Located) :
    readAll stop u (ts ++ rest) = readAll stop (u.pushAll es) rest := by
  induction es generalizing u ts with
  | nil =>
    rw [spellings_nil] at h
    obtain rfl := List.map_eq_nil_iff.mp h
    rfl
  | cons e es ih =>
    rw [spellings_cons] at h
    obtain ⟨ts₁, ts₂, rfl, h₁, h₂⟩ := List.map_eq_append_iff.mp h
    obtain ⟨v, t, hfeed, hlast⟩ := (steady_readAll stop).tree (u := u) h₁
    -- no list need be open here: reading all goes on behind every tree
    rw [List.append_assoc, hlast, readAll_of_feed hfeed, Unfinished.pushAll_cons]
    exact ih h₂

/-- Reading the first tree stops behind the tree that the first lexemes spell. -/
theorem readFirst_spelling (stop : Nat) {e : Expr} {ts : List Located}
    (h : ts.map Located.lexeme = e.spelling) (rest : List Located) :
    ∃ pos, readFirst stop .start (ts ++ rest) = .ok (e, pos, rest) := by
  obtain ⟨v, t, hfeed, hlast⟩ := (steady_readFirst stop).tree (u := .start) h
  refine ⟨t.stop, ?_⟩
  rw [hlast, readFirst, hfeed]
  rfl

/-- A text that spells trees is read as these trees. -/
theorem parseAllChars_of_lexed {cs : List Char} {es : List Expr} (h : lexed cs = spellings es) :
    parseAllChars cs = .ok es := by
  have hread : readAll cs.length .start (lexemes cs ++ []) =
      readAll cs.length (Unfinished.start.pushAll es) [] := readAll_spellings h []
  rw [List.append_nil] at hread
  rw [parseAllChars, hread]
  simp [readAll, Unfinished.finish, Unfinished.pushAll, Unfinished.start]

/-- A text that spells one tree is read as this tree. -/
theorem parseChars_of_lexed {cs : List Char} {e : Expr} (h : lexed cs = e.spelling) :
    parseChars cs = .ok e := by
  obtain ⟨pos, hfirst⟩ := readFirst_spelling cs.length h []
  rw [List.append_nil] at hfirst
  rw [parseChars, hfirst]

end Expr

end TreeRules
