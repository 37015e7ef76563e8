import TreeRules.Proofs.Expr.Grammar

/-!
# What the readers refuse

A word of a text is not empty and holds nothing that would end it (`sound_of_mem_tokens`). So it
always begins like a leaf: either with a name or with underscores. What can be wrong with it is what
follows, if the underscores end no marker (`Expr.leaf_eq_error_iff`).

So there are two reasons to refuse a lexeme, and `Expr.Refused` says them: a parenthesis closes no
list, or the underscores of a word end no marker. A lexeme is refused, or not, for itself and for
the number of the lists that are open, whatever is in them (`Expr.Unfinished.feed_eq_error_iff`).

A text is refused for one of its lexemes, then, or for the number of its trees, but never because no
tree can start where a word does (`Expr.kind_ne_noStart_of_parseAllChars`,
`Expr.kind_ne_noStart_of_parseChars`). Only a reader that is set down in the middle of a text, in
front of a blank, finds no start there.
-/

namespace TreeRules

variable {c : Char} {cs name word : List Char} {t : Located} {ts : List Located}
  {err : ReadError} {stop pos : Nat}

/-- The characters of a name are those of a word, without the underscore. -/
theorem isNameChar_of_isWordPart (hc : isWordPart c = true) (hmark : c ≠ '_') :
    isNameChar c = true := by
  obtain ⟨hblank, hopen, hclose⟩ := isWordPart_iff.mp hc
  simp [isNameChar, isReserved, hblank, hopen, hclose, hmark]

/-- A word without underscores is a name. -/
theorem exists_token (hne : name ≠ []) (hword : name.all isWordPart = true) (hmark : '_' ∉ name) :
    ∃ x, Token.ofChars? name = some x := by
  have hallowed : name.all isNameChar = true := by
    rw [List.all_eq_true] at hword ⊢
    intro c hc
    refine isNameChar_of_isWordPart (hword c hc) ?_
    rintro rfl
    exact hmark hc
  exact ⟨⟨name, hne, hallowed⟩, Token.ofChars?_eq_some_iff.mpr rfl⟩

/-- A word among tokens has a first character, and none that ends it. -/
theorem sound_of_mem_tokens (h : .word word ∈ tokens cs) :
    word ≠ [] ∧ word.all isWordPart = true := by
  fun_induction tokens cs with
  | case1 => cases h
  | case2 cs ih => exact ih (by simpa using h)
  | case3 cs _ ih => exact ih (by simpa using h)
  | case4 c cs _ _ _ ih => exact ih h
  | case5 c cs hopen hclose hblank ih =>
    rcases List.mem_cons.mp h with h | h
    · cases h
      exact ⟨List.cons_ne_nil c _, all_isWordPart_cons_takeWhile hopen hclose hblank cs⟩
    · exact ih h

/-- A lexeme with nothing wrong in it. -/
def Lexeme.Sound : Lexeme → Prop
  | .word word => word ≠ [] ∧ word.all isWordPart = true
  | _ => True

namespace Lexeme.Sound

variable {l : Lexeme}

/-- No character of a sound lexeme is a blank. -/
theorem isBlank_of_mem (hl : l.Sound) (hc : c ∈ l.chars) : Text.isBlank c = false := by
  cases l with
  | opening =>
    obtain rfl := List.mem_singleton.mp hc
    decide
  | closing =>
    obtain rfl := List.mem_singleton.mp hc
    decide
  | word word => exact (isWordPart_iff.mp (List.all_eq_true.mp hl.2 c hc)).1

theorem chars_ne_nil (hl : l.Sound) : l.chars ≠ [] := by
  cases l with
  | opening => exact List.cons_ne_nil _ _
  | closing => exact List.cons_ne_nil _ _
  | word word => exact hl.1

end Lexeme.Sound

/-- The lexemes of a text are sound, wherever it starts. -/
theorem sound_of_mem_lexemes (ht : t ∈ lexemesFrom pos cs) : t.lexeme.Sound := by
  have hmem : t.lexeme ∈ tokens cs := by
    rw [← lexed_eq_tokens, ← map_lexeme_lexemesFrom pos cs]
    exact List.mem_map_of_mem ht
  cases hlexeme : t.lexeme with
  | opening => trivial
  | closing => trivial
  | word word =>
    rw [hlexeme] at hmem
    exact sound_of_mem_tokens hmem

namespace Expr

variable {u : Unfinished} {d : Nat}

/-! ## Words -/

/-- A sound name is that of a leaf. -/
theorem exists_token_of_sound (hword : Lexeme.Sound (.word word))
    (hne : word.takeWhile (· != '_') ≠ []) :
    ∃ x, Token.ofChars? (word.takeWhile (· != '_')) = some x := by
  have hparts := hword.2
  rw [← name_append_suffix word, List.all_append, Bool.and_eq_true] at hparts
  exact exists_token hne hparts.1 (underscore_notMem_takeWhile word)

/-- The name of a word ends in front of its first underscore. -/
theorem exists_suffix_of_drop_ne_nil
    (h : word.drop (word.takeWhile (· != '_')).length ≠ []) :
    ∃ suffix, word.drop (word.takeWhile (· != '_')).length = '_' :: suffix := by
  have hdrop : word.drop (word.takeWhile (· != '_')).length = word.dropWhile (· != '_') := by
    have hwhole : (word.takeWhile (· != '_') ++ word.dropWhile (· != '_')).drop
        (word.takeWhile (· != '_')).length = word.dropWhile (· != '_') := List.drop_left
    rwa [List.takeWhile_append_dropWhile] at hwhole
  rw [hdrop] at h ⊢
  have hhead := List.head_dropWhile_not (· != '_') h
  cases hrest : word.dropWhile (· != '_') with
  | nil => exact absurd hrest h
  | cons c suffix =>
    simp only [hrest, List.head_cons, bne_eq_false_iff_eq] at hhead
    exact ⟨suffix, by rw [hhead]⟩

/-- **A word makes no leaf** exactly if its underscores end no marker. -/
theorem leaf_eq_error_iff (hword : Lexeme.Sound (.word word)) :
    leaf pos word = .error err ↔
      ∃ name suffix, word = name ++ '_' :: suffix ∧ '_' ∉ name ∧
        Span.ofSuffix? ('_' :: suffix) = none ∧ err = ⟨.invalidMarker, pos + name.length⟩ := by
  constructor
  · intro h
    have hsplit := name_append_suffix word
    rw [leaf] at h
    split at h
    · rename_i hnil
      rw [hnil, List.append_nil] at hsplit
      obtain ⟨x, hx⟩ := exists_token_of_sound hword (by rw [hsplit]; exact hword.1)
      rw [hx] at h
      cases h
    · rename_i hdrop
      obtain ⟨suffix, hsuffix⟩ := exists_suffix_of_drop_ne_nil hdrop
      rw [hsuffix] at hsplit
      split at h
      · rename_i hspan
        cases h
        exact ⟨_, suffix, hsplit.symm, underscore_notMem_takeWhile word, hsuffix ▸ hspan, rfl⟩
      · split at h
        · cases h
        · rename_i hnonempty
          obtain ⟨x, hx⟩ := exists_token_of_sound hword (mt List.isEmpty_iff.mpr hnonempty)
          rw [hx] at h
          cases h
  · rintro ⟨name, suffix, rfl, hname, hsuffix, rfl⟩
    have htake : (name ++ '_' :: suffix).takeWhile (· != '_') = name := by
      rw [List.takeWhile_append_of_pos fun c hc => by
        rw [bne_iff_ne]
        rintro rfl
        exact hname hc]
      simp
    have hdrop : (name ++ '_' :: suffix).drop name.length = '_' :: suffix := List.drop_left
    rw [leaf, htake, hdrop]
    simp only [hsuffix]

/-! ## Lexemes -/

/-- Why a lexeme is refused where this many lists are open, and the error. -/
inductive Refused (depth : Nat) (t : Located) : ReadError → Prop where
  /-- it closes a list, but none is open -/
  | closing (hlexeme : t.lexeme = .closing) (hdepth : depth = 0) :
      Refused depth t ⟨.unbalanced, t.start⟩
  /-- it has underscores that end no marker -/
  | word {name suffix : List Char} (hlexeme : t.lexeme = .word (name ++ '_' :: suffix))
      (hname : '_' ∉ name) (hsuffix : Span.ofSuffix? ('_' :: suffix) = none) :
      Refused depth t ⟨.invalidMarker, t.start + name.length⟩

namespace Unfinished

/-- The number of open lists. -/
def depth (u : Unfinished) : Nat := u.outer.length

/-- **What is refused, and why.** -/
theorem feed_eq_error_iff (ht : t.lexeme.Sound) :
    u.feed t = .error err ↔ Refused u.depth t err := by
  constructor
  · intro h
    cases hlexeme : t.lexeme with
    | opening =>
      rw [u.feed_opening hlexeme] at h
      cases h
    | closing =>
      obtain ⟨inner, _ | ⟨around, outer⟩⟩ := u
      · rw [feed_closing_nil hlexeme] at h
        cases h
        exact .closing hlexeme rfl
      · rw [feed_closing_cons hlexeme] at h
        cases h
    | word word =>
      rw [u.feed_eq_map_leaf hlexeme] at h
      rw [hlexeme] at ht
      cases hleaf : leaf t.start word with
      | ok e =>
        rw [hleaf] at h
        cases h
      | error err' =>
        rw [hleaf] at h
        cases h
        obtain ⟨name, suffix, rfl, hname, hsuffix, rfl⟩ := (leaf_eq_error_iff ht).mp hleaf
        exact .word hlexeme hname hsuffix
  · rintro (⟨hlexeme, hdepth⟩ | ⟨hlexeme, hname, hsuffix⟩)
    · obtain ⟨inner, outer⟩ := u
      obtain rfl := List.length_eq_zero_iff.mp hdepth
      exact feed_closing_nil hlexeme inner
    · rw [hlexeme] at ht
      rw [u.feed_eq_map_leaf hlexeme,
        (leaf_eq_error_iff ht).mpr ⟨_, _, rfl, hname, hsuffix, rfl⟩]
      rfl

end Unfinished

theorem Refused.kind (h : Refused d t err) :
    err.kind = .unbalanced ∨ err.kind = .invalidMarker := by
  cases h with
  | closing => exact Or.inl rfl
  | word => exact Or.inr rfl

/-! ## Texts -/

/-- Reading everything fails for a lexeme, or for a list that is still open. -/
theorem kind_of_readAll (hts : ∀ t ∈ ts, t.lexeme.Sound) (h : readAll stop u ts = .error err) :
    err.kind = .unbalanced ∨ err.kind = .invalidMarker := by
  induction ts generalizing u with
  | nil =>
    rw [readAll, Unfinished.finish] at h
    split at h
    · cases h
    · cases h
      exact Or.inl rfl
  | cons t ts ih =>
    rw [List.forall_mem_cons] at hts
    rw [readAll] at h
    split at h
    · exact ih hts.2 h
    · rename_i hfeed
      cases h
      exact ((Unfinished.feed_eq_error_iff hts.1).mp hfeed).kind

/-- Reading the first tree fails for the lack of one, too. -/
theorem kind_of_readFirst (hts : ∀ t ∈ ts, t.lexeme.Sound)
    (h : readFirst stop u ts = .error err) :
    err.kind = .empty ∨ err.kind = .unbalanced ∨ err.kind = .invalidMarker := by
  induction ts generalizing u with
  | nil =>
    rw [readFirst] at h
    cases h
    split
    · exact Or.inl rfl
    · exact Or.inr (Or.inl rfl)
  | cons t ts ih =>
    rw [List.forall_mem_cons] at hts
    rw [readFirst] at h
    split at h
    · rename_i hfeed
      cases h
      exact Or.inr ((Unfinished.feed_eq_error_iff hts.1).mp hfeed).kind
    · cases h
    · exact ih hts.2 h

/-- What all trees of a text fail for. -/
theorem kind_of_parseAllChars (h : parseAllChars cs = .error err) :
    err.kind = .unbalanced ∨ err.kind = .invalidMarker :=
  kind_of_readAll (fun _ => sound_of_mem_lexemes) h

/-- What the one tree of a text fails for. -/
theorem kind_of_parseChars (h : parseChars cs = .error err) :
    err.kind ∈ [.unbalanced, .empty, .invalidMarker, .trailing] := by
  rw [parseChars] at h
  split at h
  · rename_i hfirst
    cases h
    obtain hkind | hkind | hkind := kind_of_readFirst (fun _ => sound_of_mem_lexemes) hfirst <;>
      rw [hkind] <;> decide
  · cases h
  · cases h
    dsimp only
    split <;> decide

/-- **Some tree can start** wherever the trees of a text are looked for. -/
theorem kind_ne_noStart_of_parseAllChars (h : parseAllChars cs = .error err) :
    err.kind ≠ .noStart := by
  obtain hkind | hkind := kind_of_parseAllChars h <;> rw [hkind] <;> decide

/-- **Some tree can start** where the one tree of a text is looked for. -/
theorem kind_ne_noStart_of_parseChars (h : parseChars cs = .error err) : err.kind ≠ .noStart := by
  intro hkind
  have hmem := kind_of_parseChars h
  rw [hkind] at hmem
  exact absurd hmem (by decide)

end Expr

end TreeRules
