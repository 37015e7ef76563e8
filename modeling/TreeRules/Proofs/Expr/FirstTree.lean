import TreeRules.Proofs.Expr.Feeding

/-!
# Reading the first tree

As long as the reader of one tree goes on, no tree is finished at top level (`Unfinished.Pending`),
and the lexeme that finishes one ends the reading. So there are three ways that reading a text as
one tree can end without it:

* the tree is there, but another character follows (`Followed`), and the error is noticed there
  (`Followed.parseChars_eq_error`);
* a lexeme is refused before the tree is finished;
* the text ends first, and the lexemes have been fed up to the last (`readFirst_eq_error`).

In the second case the same happens in every longer text (`readFirst_of_grown`): a lexeme in front
of the refused one is the same there, and the refused one is refused even if it is a longer word.
-/

namespace TreeRules

/-- What ends no marker cannot be mended by what follows. -/
theorem Span.ofSuffix?_append_eq_none {suffix : List Char}
    (h : ofSuffix? ('_' :: suffix) = none) (more : List Char) :
    ofSuffix? ('_' :: (suffix ++ more)) = none := by
  cases hspan : ofSuffix? ('_' :: (suffix ++ more)) with
  | none => rfl
  | some s =>
    -- then all of it are underscores, three at most, and its first part would be a suffix as well
    have heq := Expr.eq_replicate_of_ofSuffix? hspan
    have hfew : s.underscores ≤ 3 := by cases s <;> decide
    have hlength := congrArg List.length heq
    rw [List.length_cons, List.length_append, List.length_replicate] at hlength
    have hmarks : suffix = List.replicate suffix.length '_' := by
      refine List.eq_replicate_of_mem fun c hc => ?_
      have hmem : c ∈ '_' :: (suffix ++ more) := by simp [hc]
      rw [heq] at hmem
      exact List.eq_of_mem_replicate hmem
    obtain hn | hn | hn : suffix.length = 0 ∨ suffix.length = 1 ∨ suffix.length = 2 := by omega
    all_goals
      rw [hmarks, hn] at h
      cases h

namespace Expr

variable {c : Char} {cs front back word more : List Char} {t : Located} {ts ts' : List Located}
  {err : ReadError} {u v : Unfinished} {e : Expr} {stop stop' pos d : Nat}

/-! ## As long as no tree is finished -/

namespace Unfinished

/-- No tree is finished at top level. -/
def Pending (u : Unfinished) : Prop := (u.inner :: u.outer).getLast? = some []

theorem pending_start : start.Pending := rfl

/-- A lexeme finishes the first tree, or no tree is finished behind it either. -/
theorem Pending.feed (hu : u.Pending) (h : u.feed t = .ok v) :
    v.Pending ∨ ∃ e, v = ⟨[e], []⟩ := by
  cases fed_of_feed h with
  | opening => exact Or.inl hu
  | closing _ inner around outer =>
    cases outer with
    | nil =>
      obtain rfl : around = [] := Option.some.inj hu
      exact Or.inr ⟨_, rfl⟩
    | cons around' outer => exact Or.inl hu
  | word =>
    obtain ⟨inner, _ | ⟨around, outer⟩⟩ := u
    · obtain rfl : inner = [] := Option.some.inj hu
      exact Or.inr ⟨_, rfl⟩
    · exact Or.inl hu

/-- Lists around each other in which no tree is finished are closed to one tree. -/
theorem Pending.exists_closed (hu : u.Pending) (hopen : u.outer ≠ []) :
    ∃ e, closed u.inner u.outer = [e] := by
  obtain ⟨inner, outer⟩ := u
  induction outer generalizing inner with
  | nil => exact absurd rfl hopen
  | cons around outer ih =>
    cases outer with
    | nil =>
      obtain rfl : around = [] := Option.some.inj hu
      exact ⟨.list inner.reverse, rfl⟩
    | cons around' outer => exact ih (.list inner.reverse :: around) hu (List.cons_ne_nil _ _)

end Unfinished

theorem readFirst_of_feed_error (h : u.feed t = .error err) (stop : Nat) (ts : List Located) :
    readFirst stop u (t :: ts) = .error err := by
  rw [readFirst, h]

/-- Where no tree is finished, reading goes on. -/
theorem readFirst_of_pending (h : u.feed t = .ok v) (hv : v.Pending) (stop : Nat)
    (ts : List Located) : readFirst stop u (t :: ts) = readFirst stop v ts := by
  rw [readFirst, h]
  obtain ⟨inner, outer⟩ := v
  rcases inner with _ | ⟨e, _ | ⟨e', inner⟩⟩
  · rfl
  · cases outer with
    | nil => cases hv
    | cons around outer => rfl
  · rfl

/-- Where a tree is finished, reading ends. -/
theorem readFirst_of_finished (h : u.feed t = .ok ⟨[e], []⟩) (stop : Nat) (ts : List Located) :
    readFirst stop u (t :: ts) = .ok (e, t.stop, ts) := by
  rw [readFirst, h]

/-- **Reading the first tree fails** where a lexeme is refused, or at the end, with no tree
finished. -/
theorem readFirst_eq_error (hu : u.Pending) (hts : ∀ t ∈ ts, t.lexeme.Sound)
    (h : readFirst stop u ts = .error err) :
    (∃ t ∈ ts, ∃ d, Refused d t err) ∨
      ∃ v, u.feedAll ts = .ok v ∧ v.Pending ∧
        err = ⟨if v.outer.isEmpty then .empty else .unbalanced, stop⟩ := by
  induction ts generalizing u with
  | nil =>
    cases h
    exact Or.inr ⟨u, rfl, hu, rfl⟩
  | cons t ts ih =>
    rw [List.forall_mem_cons] at hts
    cases hfeed : u.feed t with
    | error err' =>
      rw [readFirst_of_feed_error hfeed] at h
      cases h
      exact Or.inl ⟨t, List.mem_cons_self, _, (Unfinished.feed_eq_error_iff hts.1).mp hfeed⟩
    | ok w =>
      rcases hu.feed hfeed with hw | ⟨e, rfl⟩
      · rw [readFirst_of_pending hfeed hw] at h
        obtain ⟨t', ht', hrefused⟩ | ⟨v, hv, hpending, herr⟩ := ih hw hts.2 h
        · exact Or.inl ⟨t', List.mem_cons_of_mem t ht', hrefused⟩
        · exact Or.inr ⟨v, by rw [Unfinished.feedAll_cons hfeed, hv], hpending, herr⟩
      · rw [readFirst_of_finished hfeed] at h
        cases h

/-! ## Longer texts -/

/-- A word that is refused is refused even with more behind it. -/
theorem Refused.longer (h : Refused d ⟨pos, .word word⟩ err) (more : List Char) :
    Refused d ⟨pos, .word (word ++ more)⟩ err := by
  rcases h with ⟨⟨⟩, -⟩ | ⟨hlexeme, hname, hsuffix⟩
  rename_i name suffix
  rw [Lexeme.word.injEq] at hlexeme
  refine .word ?_ hname (Span.ofSuffix?_append_eq_none hsuffix more)
  rw [hlexeme, List.append_assoc, List.cons_append]

/-- **A lexeme that is refused is refused in every longer text.** -/
theorem readFirst_of_grown (hgrown : Grown ts ts') (hts : ∀ t ∈ ts, t.lexeme.Sound)
    (hts' : ∀ t ∈ ts', t.lexeme.Sound) (hu : u.Pending) (h : readFirst stop u ts = .error err)
    (herr : err.position ≠ stop) (stop' : Nat) : readFirst stop' u ts' = .error err := by
  induction hgrown generalizing u with
  | nil ts' =>
    cases h
    exact absurd rfl herr
  | word start word more ts' =>
    rw [List.forall_mem_cons] at hts hts'
    cases hfeed : u.feed ⟨start, .word word⟩ with
    | error err' =>
      rw [readFirst_of_feed_error hfeed] at h
      cases h
      have hrefused := (Unfinished.feed_eq_error_iff hts.1).mp hfeed
      have hlonger := (Unfinished.feed_eq_error_iff hts'.1).mpr (hrefused.longer more)
      exact readFirst_of_feed_error hlonger stop' ts'
    | ok v =>
      -- nothing is left that could be refused
      rcases hu.feed hfeed with hv | ⟨e, rfl⟩
      · rw [readFirst_of_pending hfeed hv] at h
        cases h
        exact absurd rfl herr
      · rw [readFirst_of_finished hfeed] at h
        cases h
  | cons t hrest ih =>
    rw [List.forall_mem_cons] at hts hts'
    cases hfeed : u.feed t with
    | error err' =>
      rw [readFirst_of_feed_error hfeed] at h
      cases h
      exact readFirst_of_feed_error hfeed stop' _
    | ok v =>
      rcases hu.feed hfeed with hv | ⟨e, rfl⟩
      · rw [readFirst_of_pending hfeed hv] at h ⊢
        exact ih hts.2 hts'.2 hv h
      · rw [readFirst_of_finished hfeed] at h
        cases h

/-! ## What follows the tree -/

/-- The text holds a tree that is complete, and then this character, which is no blank. -/
def Followed (cs : List Char) (pos : Nat) (c : Char) : Prop :=
  ∃ front back e, cs = front ++ c :: back ∧ front.length = pos ∧ Parted front (c :: back) ∧
    parseChars front = .ok e ∧ Text.isBlank c = false

namespace Followed

theorem lt_length (h : Followed cs pos c) : pos < cs.length := by
  obtain ⟨front, back, e, rfl, rfl, -⟩ := h
  rw [List.length_append, List.length_cons]
  omega

/-- What follows the character does not matter. -/
theorem append (h : Followed cs pos c) (more : List Char) : Followed (cs ++ more) pos c := by
  obtain ⟨front, back, e, rfl, hpos, hparted, he, hc⟩ := h
  refine ⟨front, back ++ more, e, ?_, hpos, hparted.append_right more, he, hc⟩
  rw [List.append_assoc, List.cons_append]

/-- **Whatever follows the tree is an error.** -/
theorem parseChars_eq_error (h : Followed cs pos c) :
    parseChars cs = .error ⟨if c = ')' then .unbalanced else .trailing, pos⟩ := by
  obtain ⟨front, back, e, rfl, rfl, hparted, he, hc⟩ := h
  obtain ⟨t, ts, hlexemes, hstart, hclosing⟩ := exists_lexemesFrom_eq_cons hc front.length back
  obtain ⟨stop, hfirst⟩ := readFirst_spelling (front ++ c :: back).length (lexed_of_parseChars he)
    (t :: ts)
  have hsplit := lexemesFrom_append hparted 0
  rw [Nat.zero_add, hlexemes] at hsplit
  rw [parseChars, lexemes, hsplit, ← lexemes, hfirst]
  simp only [hclosing, hstart]

end Followed

/-- **How reading a text as one tree ends.** -/
theorem parseChars_cases (cs : List Char) :
    (∃ e, parseChars cs = .ok e) ∨ (∃ pos c, Followed cs pos c) ∨
      ∃ err, readFirst cs.length .start (lexemes cs) = .error err ∧
        parseChars cs = .error err := by
  rcases hfirst : readFirst cs.length .start (lexemes cs) with err | ⟨e, stop, _ | ⟨t, ts⟩⟩
  · exact Or.inr (Or.inr ⟨err, rfl, by rw [parseChars, hfirst]⟩)
  · exact Or.inl ⟨e, by rw [parseChars, hfirst]⟩
  · -- the text is cut in front of the lexeme that is left
    have hlexed : lexed cs = e.spelling ++ t.lexeme :: ts.map Located.lexeme :=
      consumed_of_readFirst hfirst
    obtain ⟨front, c, back, rfl, hparted, hc, hfront, -⟩ := exists_cut hlexed
    exact Or.inr (Or.inl ⟨_, c, front, back, e, rfl, rfl, hparted, parseChars_of_lexed hfront, hc⟩)

/-- **How it can fail**: something follows the tree, or a lexeme is refused before there is one, or
the text ends before there is one. -/
theorem parseChars_eq_error_cases (h : parseChars cs = .error err) :
    (∃ pos c, Followed cs pos c) ∨
      (readFirst cs.length .start (lexemes cs) = .error err ∧
        ∃ t ∈ lexemes cs, ∃ d, Refused d t err) ∨
      ∃ v, Unfinished.start.feedAll (lexemes cs) = .ok v ∧ v.Pending ∧
        err = ⟨if v.outer.isEmpty then .empty else .unbalanced, cs.length⟩ := by
  obtain ⟨e, he⟩ | hfollowed | ⟨err', hfirst, hparse⟩ := parseChars_cases cs
  · rw [he] at h
    cases h
  · exact Or.inl hfollowed
  · rw [hparse] at h
    cases h
    obtain hrefused | hend :=
      readFirst_eq_error Unfinished.pending_start (fun _ => sound_of_mem_lexemes) hfirst
    · exact Or.inr (Or.inl ⟨hfirst, hrefused⟩)
    · exact Or.inr (Or.inr hend)

end Expr

end TreeRules
