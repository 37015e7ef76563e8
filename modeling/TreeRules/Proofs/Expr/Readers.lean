import TreeRules.Proofs.Expr.FirstTree

/-!
# The two readers

A text is read as one tree or as any number of trees, and both readers feed the same lexemes. So
they agree until the first tree is finished (`readAll_of_readFirst_error`). Behind it the reader of
one tree wants nothing more, and takes whatever follows for an error: for a parenthesis without a
partner the other reader takes it for the same, and of anything else it has more to say, but nothing
about what is in front of it (`Followed.parseAllChars_eq_error`).
-/

namespace TreeRules

namespace Expr

variable {c : Char} {cs : List Char} {ts : List Located} {err : ReadError} {u : Unfinished}
  {e e₁ e₂ : Expr} {es : List Expr} {stop pos : Nat}

/-! ## Texts of trees -/

/-- A text of one tree is the same for both readers. -/
theorem parseChars_eq_ok_iff : parseChars cs = .ok e ↔ parseAllChars cs = .ok [e] := by
  have hspelling : spellings [e] = e.spelling := by
    rw [spellings_cons, spellings_nil, List.append_nil]
  constructor
  · intro h
    exact parseAllChars_of_lexed (by rw [lexed_of_parseChars h, hspelling])
  · intro h
    exact parseChars_of_lexed (by rw [lexed_of_parseAllChars h, hspelling])

/-- A text of no tree is empty, blanks apart. -/
theorem parseChars_of_parseAllChars_nil (h : parseAllChars cs = .ok []) :
    parseChars cs = .error ⟨.empty, cs.length⟩ := by
  have hnil : lexemes cs = [] := List.map_eq_nil_iff.mp (lexed_of_parseAllChars h)
  rw [parseChars, hnil]
  rfl

/-- The first lexeme of a tree closes nothing. -/
theorem exists_spelling_eq_cons (e : Expr) : ∃ l ls, e.spelling = l :: ls ∧ l ≠ .closing := by
  cases e with
  | atom x => exact ⟨_, _, spelling_atom x, by simp⟩
  | list cs => exact ⟨_, _, spelling_list cs, by simp⟩
  | marker x s => exact ⟨_, _, spelling_marker x s, by simp⟩

/-- **A text of several trees can be cut in front of the second one.** -/
theorem exists_second (h : parseAllChars cs = .ok (e₁ :: e₂ :: es)) :
    ∃ front c back, cs = front ++ c :: back ∧ parseChars front = .ok e₁ ∧
      parseAllChars (c :: back) = .ok (e₂ :: es) ∧ Followed cs front.length c ∧ c ≠ ')' := by
  obtain ⟨l, ls, hspelling, hl⟩ := exists_spelling_eq_cons e₂
  have hlexed : lexed cs = e₁.spelling ++ l :: (ls ++ spellings es) := by
    rw [lexed_of_parseAllChars h, spellings_cons, spellings_cons, hspelling, List.cons_append]
  obtain ⟨front, c, back, rfl, hparted, hc, hfront, hback⟩ := exists_cut hlexed
  have hfirst : parseChars front = .ok e₁ := parseChars_of_lexed hfront
  refine ⟨front, c, back, rfl, hfirst, parseAllChars_of_lexed ?_,
    ⟨front, back, e₁, rfl, rfl, hparted, hfirst, hc⟩, ?_⟩
  · rw [hback, spellings_cons, hspelling, List.cons_append]
  · rintro rfl
    rw [lexed_closing, List.cons.injEq] at hback
    exact hl hback.1.symm

/-! ## Errors -/

/-- **In front of the end of the first tree both readers fail alike**, unless there is nothing to
read. -/
theorem readAll_of_readFirst_error (hu : u.Pending) (h : readFirst stop u ts = .error err) :
    readAll stop u ts = .error err ∨ ∃ es, readAll stop u ts = .ok es := by
  induction ts generalizing u with
  | nil =>
    obtain ⟨inner, outer⟩ := u
    cases outer with
    | nil => exact Or.inr ⟨_, rfl⟩
    | cons around outer =>
      cases h
      exact Or.inl rfl
  | cons t ts ih =>
    cases hfeed : u.feed t with
    | error err' =>
      rw [readFirst_of_feed_error hfeed] at h
      cases h
      exact Or.inl (by rw [readAll, hfeed])
    | ok v =>
      rw [readAll_of_feed hfeed]
      rcases hu.feed hfeed with hv | ⟨e, rfl⟩
      · rw [readFirst_of_pending hfeed hv] at h
        exact ih hv h
      · rw [readFirst_of_finished hfeed] at h
        cases h

namespace Followed

/-- Behind the first tree reading all trees goes on. -/
theorem exists_rest (h : Followed cs pos c) :
    ∃ e back, parseAllChars cs = readAll cs.length ⟨[e], []⟩ (lexemesFrom pos (c :: back)) ∧
      ∀ t ∈ lexemesFrom pos (c :: back), t ∈ lexemes cs := by
  obtain ⟨front, back, e, rfl, rfl, hparted, he, -⟩ := h
  have hsplit := lexemesFrom_append hparted 0
  have hspelling : (lexemesFrom 0 front).map Located.lexeme = spellings [e] := by
    rw [spellings_cons, spellings_nil, List.append_nil]
    exact lexed_of_parseChars he
  rw [Nat.zero_add] at hsplit
  refine ⟨e, back, ?_, fun t ht => ?_⟩
  · rw [parseAllChars, lexemes, hsplit, readAll_spellings hspelling]
    rfl
  · rw [lexemes, hsplit]
    exact List.mem_append_right _ ht

/-- Only for a parenthesis is there another error than that something follows the tree. -/
theorem eq_closing (h : Followed cs pos c) (herr : parseChars cs = .error err)
    (hkind : err.kind ≠ .trailing) : c = ')' := by
  by_cases hc : c = ')'
  · exact hc
  · rw [h.parseChars_eq_error, if_neg hc] at herr
    cases herr
    exact absurd rfl hkind

/-- An error behind the first tree is noticed behind it. -/
theorem le_position (hfollowed : Followed cs pos c) (h : parseAllChars cs = .error err) :
    pos ≤ err.position := by
  obtain ⟨e, back, hrest, hmem⟩ := hfollowed.exists_rest
  rw [hrest] at h
  obtain ⟨t, ht, d, hrefused⟩ | ⟨v, -, -, rfl⟩ :=
    readAll_eq_error (fun t ht => sound_of_mem_lexemes (hmem t ht)) h
  · exact Nat.le_trans (le_start_of_mem_lexemesFrom ht) hrefused.start_le
  · exact Nat.le_of_lt hfollowed.lt_length

/-- A parenthesis that closes nothing is refused behind the first tree, too. -/
theorem parseAllChars_of_closing (h : Followed cs pos ')') :
    parseAllChars cs = .error ⟨.unbalanced, pos⟩ := by
  obtain ⟨e, back, hrest, -⟩ := h.exists_rest
  have hclosing : Unfinished.feed ⟨[e], []⟩ ⟨pos, .closing⟩ = .error ⟨.unbalanced, pos⟩ :=
    Unfinished.feed_closing_nil rfl [e]
  rw [hrest, lexemesFrom_closing, readAll, hclosing]

end Followed

/-- **Where reading all trees fails**, reading one fails for the same reason, or else for what
follows the first tree. -/
theorem parseChars_of_parseAllChars_error (h : parseAllChars cs = .error err) :
    (parseChars cs = .error err ∧ ∀ pos c, Followed cs pos c → c = ')') ∨
      ∃ pos c, Followed cs pos c ∧ c ≠ ')' ∧ pos ≤ err.position ∧
        parseChars cs = .error ⟨.trailing, pos⟩ := by
  have hkind : err.kind ≠ .trailing := by
    obtain hkind | hkind := kind_of_parseAllChars h <;> rw [hkind] <;> decide
  obtain ⟨e, he⟩ | ⟨pos, c, hfollowed⟩ | ⟨err', hfirst, hparse⟩ := parseChars_cases cs
  · rw [parseChars_eq_ok_iff.mp he] at h
    cases h
  · by_cases hc : c = ')'
    · rw [hc] at hfollowed
      have hparse : parseChars cs = .error err := by
        rw [hfollowed.parseAllChars_of_closing] at h
        cases h
        exact hfollowed.parseChars_eq_error
      exact Or.inl ⟨hparse, fun pos c hfollowed => hfollowed.eq_closing hparse hkind⟩
    · refine Or.inr ⟨pos, c, hfollowed, hc, hfollowed.le_position h, ?_⟩
      rw [hfollowed.parseChars_eq_error, if_neg hc]
  · have hall : parseAllChars cs = .error err' ∨ ∃ es, parseAllChars cs = .ok es :=
      readAll_of_readFirst_error Unfinished.pending_start hfirst
    obtain hall | ⟨es, hall⟩ := hall
    · rw [h] at hall
      cases hall
      exact Or.inl ⟨hparse, fun pos c hfollowed => hfollowed.eq_closing hparse hkind⟩
    · rw [h] at hall
      cases hall

/-! ## The agreement -/

/-- **The two readers agree.** A text is read as one tree exactly if all of its trees are this one.
If there are none, the text ends too early for the reader of one; if there are several, it does not
get over the second. If reading all trees fails, which is never for what follows a tree or for the
lack of trees, reading one fails in the same way, except where a complete first tree is followed by
a character that is neither blank nor a closing parenthesis: then it fails there, and no later. -/
theorem readers_agree (s : String) :
    (∀ e, parse s = .ok e ↔ parseAll s = .ok [e]) ∧
      (parseAll s = .ok [] → parse s = .error ⟨.empty, s.length⟩) ∧
      (∀ e₁ e₂ es, parseAll s = .ok (e₁ :: e₂ :: es) →
        ∃ front back : String, s = front ++ back ∧ parse front = .ok e₁ ∧
          parseAll back = .ok (e₂ :: es) ∧ (∀ c ∈ back.toList.head?, Text.isBlank c = false) ∧
          parse s = .error ⟨.trailing, front.length⟩) ∧
      ∀ err, parseAll s = .error err →
        (err.kind = .unbalanced ∨ err.kind = .invalidMarker) ∧
          ((parse s = .error err ∧ ∀ pos c, Followed s.toList pos c → c = ')') ∨
            ∃ pos c, Followed s.toList pos c ∧ c ≠ ')' ∧ pos ≤ err.position ∧
              parse s = .error ⟨.trailing, pos⟩) := by
  refine ⟨fun e => parseChars_eq_ok_iff, fun h => ?_, fun e₁ e₂ es h => ?_, fun err h =>
    ⟨kind_of_parseAllChars h, parseChars_of_parseAllChars_error h⟩⟩
  · rw [← String.length_toList]
    exact parseChars_of_parseAllChars_nil h
  · obtain ⟨front, c, back, hs, hfront, hback, hfollowed, hc⟩ := exists_second h
    refine ⟨String.ofList front, String.ofList (c :: back), ?_, ?_, ?_, ?_, ?_⟩
    · rw [← String.ofList_append, ← hs, String.ofList_toList]
    · rwa [parse, String.toList_ofList]
    · rwa [parseAll, String.toList_ofList]
    · rw [String.toList_ofList]
      intro d hd
      obtain rfl : c = d := Option.some.inj hd
      obtain ⟨-, -, -, -, -, -, -, hblank⟩ := hfollowed
      exact hblank
    · have hlength : (String.ofList front).length = front.length := by
        rw [← String.length_toList, String.toList_ofList]
      rw [parse, hfollowed.parseChars_eq_error, if_neg hc, hlength]

/-- There is no tree in a blank, and there are two in `f (g)`. In `f (g a_b)` both readers fail, but
the first tree ends in front of what is wrong with the second. -/
theorem readers_agree_behind_first_tree :
    parse " " = .error ⟨.empty, 1⟩ ∧
      (∃ front back : String, "f (g)" = front ++ back ∧
        parse "f (g)" = .error ⟨.trailing, front.length⟩) ∧
      ∃ pos, pos ≤ 6 ∧ parse "f (g a_b)" = .error ⟨.trailing, pos⟩ := by
  obtain ⟨-, hnone, -, -⟩ := readers_agree " "
  obtain ⟨-, -, htwo, -⟩ := readers_agree "f (g)"
  obtain ⟨-, -, -, herror⟩ := readers_agree "f (g a_b)"
  have hfollowed : Followed "f (g a_b)".toList 2 '(' := by
    refine ⟨['f', ' '], "g a_b)".toList, _, rfl, rfl, Or.inl fun c hc => ?_, rfl, by decide⟩
    obtain rfl : ' ' = c := Option.some.inj hc
    decide
  obtain ⟨front, back, hsplit, -, -, -, hparse⟩ := htwo _ _ [] rfl
  refine ⟨hnone rfl, ⟨front, back, hsplit, hparse⟩, ?_⟩
  obtain ⟨-, ⟨-, hclosing⟩ | ⟨pos, c, -, -, hpos, hparse⟩⟩ := herror ⟨.invalidMarker, 6⟩ rfl
  · exact absurd (hclosing 2 '(' hfollowed) (by decide)
  · exact ⟨pos, hpos, hparse⟩

end Expr

end TreeRules
