import TreeRules.Proofs.Expr.Spelling

/-!
# The grammar of texts

The reader accepts exactly the texts whose tokens spell trees. Tokens are said here without the
reader: a parenthesis is a token, a word reaches as far as word characters do, blanks are dropped
(`tokens`). Three facts make up the grammar:

* what is accepted was spelled: after every step the tokens read so far are those that spell the
  lists still open and the trees in them (`Unfinished.consumed`), so that at the end they spell the
  result;
* what is spelled is accepted, which `readAll_spellings` and `readFirst_spelling` say;
* an error is noticed at an offset, but which error it is depends on the tokens only
  (`parseAllChars_mapError_kind`, `parseChars_mapError_kind`).
-/

namespace TreeRules

/-! ## Tokens -/

/-- The tokens of a text, each word with all the word characters that follow its first one. -/
def tokens (cs : List Char) : List Lexeme :=
  match cs with
  | [] => []
  | c :: cs =>
    if c = '(' then .opening :: tokens cs
    else if c = ')' then .closing :: tokens cs
    else if Text.isBlank c then tokens cs
    else .word (c :: cs.takeWhile isWordPart) :: tokens (cs.dropWhile isWordPart)
termination_by cs.length
decreasing_by
  all_goals have := (List.dropWhile_sublist isWordPart (l := cs)).length_le
  all_goals simp only [List.length_cons]; omega

/-- What is left behind a word cannot make it longer. -/
theorem endsWord_dropWhile (cs : List Char) : EndsWord (cs.dropWhile isWordPart) := by
  intro c hc
  cases hrest : cs.dropWhile isWordPart with
  | nil =>
    rw [hrest] at hc
    cases hc
  | cons d rest =>
    rw [hrest] at hc
    obtain rfl : d = c := Option.some.inj hc
    have hne : cs.dropWhile isWordPart ≠ [] := by simp [hrest]
    have hhead := List.head_dropWhile_not isWordPart hne
    simpa [hrest] using hhead

/-- A character that is neither a blank nor a parenthesis begins a word. -/
theorem all_isWordPart_cons_takeWhile {c : Char} (hopen : c ≠ '(') (hclose : c ≠ ')')
    (hblank : ¬ Text.isBlank c = true) (cs : List Char) :
    (c :: cs.takeWhile isWordPart).all isWordPart = true := by
  have hc : isWordPart c = true := isWordPart_iff.mpr ⟨by simpa using hblank, hopen, hclose⟩
  rw [List.all_cons, hc, Bool.true_and]
  exact List.all_takeWhile

/-- The lexemes that a text is read from are its tokens. -/
theorem lexed_eq_tokens (cs : List Char) : lexed cs = tokens cs := by
  fun_induction tokens cs with
  | case1 => rfl
  | case2 cs ih => rw [lexed_opening, ih]
  | case3 cs _ ih => rw [lexed_closing, ih]
  | case4 c cs _ _ hblank ih => rw [lexed_blank hblank, ih]
  | case5 c cs hopen hclose hblank ih =>
    have hword := all_isWordPart_cons_takeWhile hopen hclose hblank cs
    have hlexed := lexed_word (List.cons_ne_nil c _) hword (endsWord_dropWhile cs)
    rw [List.cons_append, List.takeWhile_append_dropWhile] at hlexed
    rw [hlexed, ih]

/-- The error of a text, when `n` characters come in front of the text. -/
def ReadError.behind (n : Nat) (err : ReadError) : ReadError := ⟨err.kind, err.position + n⟩

namespace Expr

variable {u u' : Unfinished} {t t' : Located} {ts ts' : List Located} {word : List Char} {e : Expr}
  {es : List Expr} {stop stop' pos : Nat}

/-! ## What is accepted was spelled -/

/-- The suffix of a span is its underscores. -/
theorem eq_replicate_of_ofSuffix? {suffix : List Char} {s : Span}
    (h : Span.ofSuffix? suffix = some s) : suffix = List.replicate s.underscores '_' := by
  unfold Span.ofSuffix? at h
  split at h
  · cases h; rfl
  · cases h; rfl
  · cases h; rfl
  · cases h

/-- A name made of these characters has these characters. -/
theorem chars_of_elim {α : Type} {error : ReadError} {name : List Char} {f : Token → α} {a : α}
    (h : (Token.ofChars? name).elim (Except.error error) (fun x => .ok (f x)) = .ok a) :
    ∃ x : Token, x.chars = name ∧ f x = a := by
  cases hx : Token.ofChars? name with
  | none =>
    rw [hx] at h
    cases h
  | some x =>
    rw [hx] at h
    cases h
    exact ⟨x, (Token.ofChars?_eq_some_iff.mp hx).symm, rfl⟩

/-- The word that made a leaf spells it. -/
theorem spelling_of_leaf (h : leaf pos word = .ok e) : e.spelling = [.word word] := by
  have hsplit := name_append_suffix word
  rw [leaf] at h
  split at h
  · rename_i hnil
    obtain ⟨x, hx, rfl⟩ := chars_of_elim h
    rw [hnil, List.append_nil] at hsplit
    rw [spelling_atom, hx, hsplit]
  · split at h
    · cases h
    · rename_i span hspan
      have hsuffix := eq_replicate_of_ofSuffix? hspan
      rw [hsuffix] at hsplit
      split at h
      · rename_i hempty
        cases h
        rw [List.isEmpty_iff.mp hempty] at hsplit
        rw [spelling_marker, markerChars, Option.elim_none, hsplit]
      · obtain ⟨x, hx, rfl⟩ := chars_of_elim h
        rw [spelling_marker, markerChars, Option.elim_some, hx, hsplit]

/-- Trees are spelled one after another. -/
theorem spellings_append (es es' : List Expr) :
    spellings (es ++ es') = spellings es ++ spellings es' := by
  induction es with
  | nil => rfl
  | cons e es ih => rw [List.cons_append, spellings_cons, ih, spellings_cons, List.append_assoc]

namespace Unfinished

/-- The tokens up to the parenthesis that opened the innermost of these lists. -/
def openings : List (List Expr) → List Lexeme
  | [] => []
  | around :: outer => openings outer ++ spellings around.reverse ++ [.opening]

/-- The tokens read so far. -/
def consumed (u : Unfinished) : List Lexeme := openings u.outer ++ spellings u.inner.reverse

@[simp] theorem consumed_start : start.consumed = [] := rfl

theorem consumed_opened (u : Unfinished) : u.opened.consumed = u.consumed ++ [.opening] := by
  rw [consumed, opened, openings, List.reverse_nil, spellings_nil, List.append_nil, consumed]

theorem consumed_push (u : Unfinished) (e : Expr) :
    (u.push e).consumed = u.consumed ++ e.spelling := by
  have hinner : spellings (e :: u.inner).reverse = spellings u.inner.reverse ++ e.spelling := by
    rw [List.reverse_cons, spellings_append, spellings_cons, spellings_nil, List.append_nil]
  rw [consumed, push, hinner, ← List.append_assoc, consumed]

/-- One more lexeme is read in each step, whatever the step does with it. -/
theorem consumed_of_feed (h : u.feed t = .ok u') : u'.consumed = u.consumed ++ [t.lexeme] := by
  cases fed_of_feed h with
  | opening _ ht => rw [consumed_opened, ht]
  | closing ht inner around outer =>
    -- the closed list is pushed to what was read around it
    have hpush := consumed_push ⟨around, outer⟩ (.list inner.reverse)
    have hopened : consumed ⟨inner, around :: outer⟩ =
        consumed ⟨around, outer⟩ ++ [.opening] ++ spellings inner.reverse := by
      rw [consumed, openings, consumed]
    rw [hopened, ht]
    simpa [push] using hpush
  | word _ ht he => rw [consumed_push, spelling_of_leaf he, ht]

end Unfinished

/-- **What `readAll` accepts was spelled.** -/
theorem consumed_of_readAll (h : readAll stop u ts = .ok es) :
    u.consumed ++ ts.map Located.lexeme = spellings es := by
  induction ts generalizing u with
  | nil =>
    obtain ⟨inner, outer⟩ := u
    cases outer with
    | nil =>
      cases h
      exact List.append_nil _
    | cons around outer => cases h
  | cons t ts ih =>
    rw [readAll] at h
    cases hfeed : u.feed t with
    | error err =>
      rw [hfeed] at h
      cases h
    | ok v =>
      rw [hfeed] at h
      have hrest := ih h
      rw [Unfinished.consumed_of_feed hfeed, List.append_assoc] at hrest
      exact hrest

/-- **What `readFirst` accepts was spelled**, up to the lexemes that it leaves. -/
theorem consumed_of_readFirst {rest : List Located}
    (h : readFirst stop u ts = .ok (e, pos, rest)) :
    u.consumed ++ ts.map Located.lexeme = e.spelling ++ rest.map Located.lexeme := by
  induction ts generalizing u with
  | nil => cases h
  | cons t ts ih =>
    rw [List.map_cons, List.append_cons]
    rw [readFirst] at h
    cases hfeed : u.feed t with
    | error err =>
      rw [hfeed] at h
      cases h
    | ok v =>
      rw [hfeed] at h
      rw [← Unfinished.consumed_of_feed hfeed]
      split at h
      · cases ‹Except.ok v = _›
      · rename_i heq
        cases heq
        cases h
        rw [Unfinished.consumed, List.reverse_singleton, spellings_cons, spellings_nil,
          List.append_nil]
        rfl
      · rename_i heq
        cases heq
        exact ih h

/-- A text is read as trees only if its tokens spell them. -/
theorem lexed_of_parseAllChars {cs : List Char} (h : parseAllChars cs = .ok es) :
    lexed cs = spellings es :=
  consumed_of_readAll h

/-- A text is read as one tree only if its tokens spell it. -/
theorem lexed_of_parseChars {cs : List Char} (h : parseChars cs = .ok e) :
    lexed cs = e.spelling := by
  rw [parseChars] at h
  split at h
  · cases h
  · rename_i hfirst
    cases h
    have hall := consumed_of_readFirst hfirst
    rw [List.map_nil, List.append_nil] at hall
    exact hall
  · cases h

/-! ## Words that make leaves -/

/-- A word that makes a leaf: a name without underscores, followed by at most three of them; there
is at least one where the name is empty. -/
def IsLeafWord (word : List Char) : Prop :=
  ∃ name k, word = name ++ List.replicate k '_' ∧ '_' ∉ name ∧ k ≤ 3 ∧ (name ≠ [] ∨ 0 < k)

theorem isLeafWord_chars (x : Token) : IsLeafWord x.chars := by
  refine ⟨x.chars, 0, ?_, ?_, Nat.zero_le 3, .inl x.ne_nil⟩
  · rw [List.replicate_zero, List.append_nil]
  · intro h
    exact ne_underscore_of_mem h rfl

theorem isLeafWord_markerChars (x : Option Token) (s : Span) : IsLeafWord (markerChars x s) := by
  have hfew : s.underscores ≤ 3 ∧ 0 < s.underscores := by cases s <;> decide
  refine ⟨x.elim [] Token.chars, s.underscores, rfl, ?_, hfew.1, .inr hfew.2⟩
  cases x with
  | none => exact List.not_mem_nil
  | some x => exact fun h => ne_underscore_of_mem h rfl

mutual

/-- Only such words spell a tree. -/
theorem isLeafWord_of_mem_spelling {e : Expr} (h : .word word ∈ e.spelling) : IsLeafWord word := by
  match e with
  | .atom x =>
    rw [spelling_atom, List.mem_singleton] at h
    cases h
    exact isLeafWord_chars x
  | .marker x s =>
    rw [spelling_marker, List.mem_singleton] at h
    cases h
    exact isLeafWord_markerChars x s
  | .list cs =>
    rw [spelling_list, List.mem_cons, List.mem_append, List.mem_singleton] at h
    rcases h with h | h | h
    · cases h
    · exact isLeafWord_of_mem_spellings h
    · cases h

/-- Only such words spell trees. -/
theorem isLeafWord_of_mem_spellings {es : List Expr} (h : .word word ∈ spellings es) :
    IsLeafWord word := by
  match es with
  | [] =>
    rw [spellings_nil] at h
    cases h
  | e :: es =>
    rw [spellings_cons, List.mem_append] at h
    rcases h with h | h
    · exact isLeafWord_of_mem_spelling h
    · exact isLeafWord_of_mem_spellings h

end

/-! ## Errors -/

/-- Results that agree up to the offset of the error are the same value, or errors of one kind. -/
theorem ok_or_error_of_mapError_kind_eq {α : Type} {x y : Except ReadError α}
    (h : x.mapError ReadError.kind = y.mapError ReadError.kind) :
    (∃ a, x = .ok a ∧ y = .ok a) ∨
      ∃ err err', x = .error err ∧ y = .error err' ∧ err.kind = err'.kind := by
  rcases x with err | a
  · rcases y with err' | b
    · exact .inr ⟨err, err', rfl, rfl, Except.error.inj h⟩
    · cases h
  · rcases y with err' | b
    · cases h
    · obtain rfl : a = b := Except.ok.inj h
      exact .inl ⟨a, rfl, rfl⟩

/-- What is wrong with a word moves with the word. -/
theorem leaf_shift (n pos : Nat) (word : List Char) :
    leaf (pos + n) word = (leaf pos word).mapError (ReadError.behind n) := by
  rw [leaf, leaf]
  split
  · cases Token.ofChars? _ <;> rfl
  · split
    · rw [Nat.add_right_comm]
      rfl
    · split
      · rfl
      · cases Token.ofChars? _ <;> rfl

theorem feed_shift (u : Unfinished) (n : Nat) (t : Located) :
    u.feed (t.shift n) = (u.feed t).mapError (ReadError.behind n) := by
  obtain ⟨start, _ | _ | word⟩ := t
  · rfl
  · obtain ⟨inner, _ | ⟨around, outer⟩⟩ := u <;> rfl
  · rw [u.feed_eq_map_leaf rfl, u.feed_eq_map_leaf rfl, Located.shift, leaf_shift]
    cases leaf start word <;> rfl

/-- What is wrong with a lexeme does not depend on where it stands. -/
theorem feed_mapError_kind (u : Unfinished) (ht : t.lexeme = t'.lexeme) :
    (u.feed t).mapError ReadError.kind = (u.feed t').mapError ReadError.kind := by
  have hmoved : ∀ t : Located, (u.feed t).mapError ReadError.kind =
      (u.feed ⟨0, t.lexeme⟩).mapError ReadError.kind := by
    intro t
    have hshift : u.feed t = (u.feed ⟨0, t.lexeme⟩).mapError (ReadError.behind t.start) := by
      rw [← feed_shift, Located.shift, Nat.zero_add]
    rw [hshift]
    cases u.feed ⟨0, t.lexeme⟩ <;> rfl
  rw [hmoved t, hmoved t', ht]

theorem readAll_mapError_kind (h : ts.map Located.lexeme = ts'.map Located.lexeme) :
    (readAll stop u ts).mapError ReadError.kind =
      (readAll stop' u ts').mapError ReadError.kind := by
  induction ts generalizing u ts' with
  | nil =>
    obtain rfl := List.map_eq_nil_iff.mp h.symm
    rw [readAll, readAll, Unfinished.finish, Unfinished.finish]
    cases u.outer <;> rfl
  | cons t ts ih =>
    obtain ⟨t', ts', rfl, ht, hts⟩ := List.map_eq_cons_iff.mp h.symm
    rw [readAll, readAll]
    obtain ⟨v, hv, hv'⟩ | ⟨err, err', he, he', hkind⟩ :=
      ok_or_error_of_mapError_kind_eq (feed_mapError_kind u ht.symm)
    · rw [hv, hv']
      exact ih hts.symm
    · rw [he, he']
      exact congrArg Except.error hkind

/-- The first tree, and the lexemes behind it without their offsets. -/
def firstAndRest (r : Expr × Nat × List Located) : Expr × List Lexeme :=
  (r.1, r.2.2.map Located.lexeme)

theorem readFirst_mapError_kind (h : ts.map Located.lexeme = ts'.map Located.lexeme) :
    ((readFirst stop u ts).map firstAndRest).mapError ReadError.kind =
      ((readFirst stop' u ts').map firstAndRest).mapError ReadError.kind := by
  induction ts generalizing u ts' with
  | nil =>
    obtain rfl := List.map_eq_nil_iff.mp h.symm
    rfl
  | cons t ts ih =>
    obtain ⟨t', ts', rfl, ht, hts⟩ := List.map_eq_cons_iff.mp h.symm
    rw [readFirst, readFirst]
    obtain ⟨v, hv, hv'⟩ | ⟨err, err', he, he', hkind⟩ :=
      ok_or_error_of_mapError_kind_eq (feed_mapError_kind u ht.symm)
    · rw [hv, hv']
      obtain ⟨inner, outer⟩ := v
      rcases inner with _ | ⟨e, _ | ⟨e', inner⟩⟩
      · exact ih hts.symm
      · cases outer with
        | nil =>
          have hrest : firstAndRest (e, t.stop, ts) = firstAndRest (e, t'.stop, ts') := by
            rw [firstAndRest, firstAndRest, hts]
          exact congrArg Except.ok hrest
        | cons around outer => exact ih hts.symm
      · exact ih hts.symm
    · rw [he, he']
      exact congrArg Except.error hkind

/-- **Which error a text has depends on its tokens only.** -/
theorem parseAllChars_mapError_kind {cs cs' : List Char} (h : lexed cs = lexed cs') :
    (parseAllChars cs).mapError ReadError.kind = (parseAllChars cs').mapError ReadError.kind :=
  readAll_mapError_kind h

/-- The reader of one tree gives up on the same account for the same tokens. -/
theorem parseChars_mapError_kind {cs cs' : List Char} (h : lexed cs = lexed cs') :
    (parseChars cs).mapError ReadError.kind = (parseChars cs').mapError ReadError.kind := by
  have hfirst : ((readFirst cs.length .start (lexemes cs)).map firstAndRest).mapError
        ReadError.kind =
      ((readFirst cs'.length .start (lexemes cs')).map firstAndRest).mapError ReadError.kind :=
    readFirst_mapError_kind h
  rw [parseChars, parseChars]
  rcases hread : readFirst cs.length .start (lexemes cs) with err | ⟨e, stop, rest⟩
  · rcases hread' : readFirst cs'.length .start (lexemes cs') with err' | ⟨e', stop', rest'⟩
    · rw [hread, hread'] at hfirst
      exact congrArg Except.error (Except.error.inj hfirst)
    · rw [hread, hread'] at hfirst
      cases hfirst
  · rcases hread' : readFirst cs'.length .start (lexemes cs') with err' | ⟨e', stop', rest'⟩
    · rw [hread, hread'] at hfirst
      cases hfirst
    · rw [hread, hread'] at hfirst
      have hpair : firstAndRest (e, stop, rest) = firstAndRest (e', stop', rest') :=
        Except.ok.inj hfirst
      obtain ⟨rfl, hrest⟩ := Prod.mk.inj hpair
      -- whether something is left, and what it starts with, are seen in the lexemes alone
      cases rest with
      | nil =>
        obtain rfl := List.map_eq_nil_iff.mp hrest.symm
        rfl
      | cons t rest =>
        obtain ⟨t', rest', rfl, ht, -⟩ := List.map_eq_cons_iff.mp hrest.symm
        have hkind : (if t.lexeme = .closing then ReadError.Kind.unbalanced else .trailing) =
            if t'.lexeme = .closing then .unbalanced else .trailing := by rw [ht]
        exact congrArg Except.error hkind

/-! ## The grammar -/

/-- A text is read as trees exactly if its tokens spell them. -/
theorem parseAll_eq_ok_iff {s : String} :
    parseAll s = .ok es ↔ tokens s.toList = spellings es := by
  rw [← lexed_eq_tokens]
  exact ⟨lexed_of_parseAllChars, parseAllChars_of_lexed⟩

/-- A text is read as one tree exactly if its tokens spell it. -/
theorem parse_eq_ok_iff {s : String} : parse s = .ok e ↔ tokens s.toList = e.spelling := by
  rw [← lexed_eq_tokens]
  exact ⟨lexed_of_parseChars, parseChars_of_lexed⟩

/-- What has no value is an error. -/
theorem exists_error {α : Type} {x : Except ReadError α} (h : ∀ a, x ≠ .ok a) :
    ∃ err, x = .error err := by
  cases x with
  | error err => exact ⟨err, rfl⟩
  | ok a => exact absurd rfl (h a)

/-- **The reader accepts exactly its grammar.** A text is read as certain trees exactly if its
tokens are theirs, and as one tree exactly if they are the tree's. So the result, and of an error
its kind, depends on the tokens only, and a text with a word that makes no leaf is refused. -/
theorem reader_accepts_exactly_grammar (s : String) :
    (∀ es, parseAll s = .ok es ↔ tokens s.toList = spellings es) ∧
      (∀ e, parse s = .ok e ↔ tokens s.toList = e.spelling) ∧
      (∀ s' : String, tokens s.toList = tokens s'.toList →
        (parseAll s).mapError ReadError.kind = (parseAll s').mapError ReadError.kind ∧
          (parse s).mapError ReadError.kind = (parse s').mapError ReadError.kind) ∧
      ∀ word, .word word ∈ tokens s.toList → ¬ IsLeafWord word →
        (∃ err, parseAll s = .error err) ∧ ∃ err, parse s = .error err := by
  refine ⟨fun es => parseAll_eq_ok_iff, fun e => parse_eq_ok_iff, ?_, ?_⟩
  · intro s' h
    rw [← lexed_eq_tokens, ← lexed_eq_tokens] at h
    exact ⟨parseAllChars_mapError_kind h, parseChars_mapError_kind h⟩
  · intro word hmem hword
    constructor
    · apply exists_error
      intro es h
      rw [parseAll_eq_ok_iff.mp h] at hmem
      exact hword (isLeafWord_of_mem_spellings hmem)
    · apply exists_error
      intro e h
      rw [parse_eq_ok_iff.mp h] at hmem
      exact hword (isLeafWord_of_mem_spelling hmem)

/-- In `(f a_b)x` the word `a_b` makes no leaf. So the text is refused, and so is, with an error of
the same kind, `( f a_b )` with a tab and a line feed among its blanks and `x` behind it. -/
theorem reader_refuses_inner_underscore :
    tokens "(f a_b)x".toList = tokens " ( f\ta_b )\nx".toList ∧
      .word ['a', '_', 'b'] ∈ tokens "(f a_b)x".toList ∧ ¬ IsLeafWord ['a', '_', 'b'] ∧
      (parseAll "(f a_b)x").mapError ReadError.kind =
        (parseAll " ( f\ta_b )\nx").mapError ReadError.kind ∧
      (∃ err, parseAll "(f a_b)x" = .error err) ∧ ∃ err, parse "(f a_b)x" = .error err := by
  obtain ⟨-, -, hsame, hrefused⟩ := reader_accepts_exactly_grammar "(f a_b)x"
  have htokens : tokens "(f a_b)x".toList = tokens " ( f\ta_b )\nx".toList := by
    rw [← lexed_eq_tokens, ← lexed_eq_tokens]
    decide
  have hmem : .word ['a', '_', 'b'] ∈ tokens "(f a_b)x".toList := by
    rw [← lexed_eq_tokens]
    decide
  have hword : ¬ IsLeafWord ['a', '_', 'b'] := by
    rintro ⟨name, k, heq, hname, -, -⟩
    cases k with
    | zero =>
      rw [List.replicate_zero, List.append_nil] at heq
      rw [← heq] at hname
      exact hname (by decide)
    | succ k =>
      -- a suffix of underscores would end the word with one
      rw [List.replicate_succ', ← List.append_assoc] at heq
      have hlast := congrArg List.getLast? heq
      rw [List.getLast?_concat] at hlast
      exact absurd hlast (by decide)
  exact ⟨htokens, hmem, hword, (hsame _ htokens).1, hrefused _ hmem hword⟩

end Expr

end TreeRules
