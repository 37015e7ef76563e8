import TreeRules.Proofs.Expr.Refusal

/-!
# Parts of a text

A text can be cut into two parts that are read apart, as long as the cut does not go through a word
(`Parted`): the lexemes of the first part and then those of the second are the lexemes of the whole
(`lexemesFrom_append`). There is such a cut in front of every lexeme and behind it, where the lexeme
says that it stands (`exists_cut_around`), and in front of every blank.

A cut through a word makes one difference only. The lexemes of the first part still begin those of
the whole, but the last of them may be a word that goes on behind the cut. `Grown` says this, and
`grown_lexemesFrom_append` that it holds wherever a text is cut.
-/

namespace TreeRules

variable {c : Char} {cs front back : List Char} {t : Located} {ts ts' : List Located}
  {l : Lexeme} {ls ls' : List Lexeme} {pos : Nat}

/-! ## Cuts between lexemes -/

/-- No word reaches from one part of a text into the next. -/
def Parted (front back : List Char) : Prop :=
  (∀ c ∈ front.getLast?, isWordPart c = false) ∨ EndsWord back

theorem parted_nil (back : List Char) : Parted [] back := Or.inl fun _ hc => by cases hc

theorem parted_singleton (hc : isWordPart c = false) (back : List Char) : Parted [c] back := by
  refine Or.inl fun d hd => ?_
  obtain rfl : c = d := Option.some.inj hd
  exact hc

theorem Parted.tail (h : Parted (c :: front) back) : Parted front back := by
  rcases h with h | h
  · cases front with
    | nil => exact parted_nil back
    | cons d front =>
      rw [List.getLast?_cons_cons] at h
      exact Or.inl h
  · exact Or.inr h

/-- More may stand in front of a cut, if what is put there is parted from what it comes to touch. -/
theorem Parted.append_left (h : Parted front back) (hcs : Parted cs (front ++ back)) :
    Parted (cs ++ front) back := by
  cases front with
  | nil => rwa [List.append_nil]
  | cons d front =>
    rwa [Parted, List.getLast?_append, List.getLast?_cons, Option.some_or, ← List.getLast?_cons]

/-- More may stand behind a cut, since only the character right behind it matters. -/
theorem Parted.append_right (h : Parted front (c :: back)) (more : List Char) :
    Parted front (c :: (back ++ more)) := h

/-- Behind a word only what ends it is parted from it. -/
theorem Parted.endsWord (h : Parted front back) (hne : front ≠ [])
    (hword : front.all isWordPart = true) : EndsWord back := by
  refine h.resolve_left fun hlast => ?_
  have hend := hlast _ (List.getLast?_eq_some_getLast hne)
  rw [List.all_eq_true.mp hword _ (List.getLast_mem hne)] at hend
  cases hend

/-- What ends a word does so whatever follows the first part of it, unless that part is empty. -/
theorem EndsWord.of_append (h : EndsWord (front ++ back)) : EndsWord front := by
  cases front with
  | nil => exact endsWord_nil
  | cons c front => exact endsWord_cons (h c rfl) front

theorem Parted.of_append (h : Parted cs (front ++ back)) : Parted cs front :=
  h.imp_right EndsWord.of_append

/-- What a character of no word adds to the lexemes does not depend on what follows. -/
theorem exists_lexemesFrom_cons (hc : isWordPart c = false) (pos : Nat) :
    ∃ ts, ∀ cs, lexemesFrom pos (c :: cs) = ts ++ lexemesFrom (pos + 1) cs := by
  by_cases hopen : c = '('
  · exact ⟨[⟨pos, .opening⟩], fun cs => by rw [hopen, lexemesFrom_opening]; rfl⟩
  · by_cases hclose : c = ')'
    · exact ⟨[⟨pos, .closing⟩], fun cs => by rw [hclose, lexemesFrom_closing]; rfl⟩
    · have hblank : Text.isBlank c = true := by simpa [isWordPart, hopen, hclose] using hc
      exact ⟨[], fun cs => lexemesFrom_blank hblank pos cs⟩

/-- What a character joins is the first of the lexemes behind it, or none of them. -/
theorem consWord_append (h : ts ≠ [] ∨ ∀ t ∈ ts', pos + 1 < t.start) (c : Char) :
    Located.consWord pos c (ts ++ ts') = Located.consWord pos c ts ++ ts' := by
  rcases ts with _ | ⟨⟨start, _ | _ | word⟩, ts⟩
  · exact consWord_of_lt (h.resolve_left fun hne => hne rfl) c
  · rfl
  · rfl
  · rw [List.cons_append, Located.consWord, Located.consWord]
    split <;> rfl

/-- **Parts that no word connects are read apart.** -/
theorem lexemesFrom_append (h : Parted front back) (pos : Nat) :
    lexemesFrom pos (front ++ back) =
      lexemesFrom pos front ++ lexemesFrom (pos + front.length) back := by
  induction front generalizing pos with
  | nil => rfl
  | cons c front ih =>
    have hrest := ih h.tail (pos + 1)
    have hlength : pos + (c :: front).length = pos + 1 + front.length := by
      rw [List.length_cons, Nat.add_right_comm, Nat.add_assoc]
    rw [List.cons_append, hlength]
    cases hc : isWordPart c with
    | false =>
      obtain ⟨ts, hts⟩ := exists_lexemesFrom_cons hc pos
      rw [hts, hts, hrest, List.append_assoc]
    | true =>
      rw [lexemesFrom_wordPart hc, lexemesFrom_wordPart hc]
      cases front with
      | nil =>
        have hback : EndsWord back := h.resolve_left fun hlast => by simp [hlast c rfl] at hc
        exact consWord_of_endsWord hback pos c
      | cons d front =>
        -- what is behind the cut is too far away to be joined
        rw [hrest]
        refine consWord_append (Or.inr fun t ht => ?_) c
        have hstart := le_start_of_mem_lexemesFrom ht
        rw [List.length_cons] at hstart
        omega

theorem lexed_append (h : Parted front back) :
    lexed (front ++ back) = lexed front ++ lexed back := by
  rw [lexed, lexemes, lexemesFrom_append h, List.map_append, map_lexeme_lexemesFrom,
    map_lexeme_lexemesFrom]

theorem lexed_trimLeft (cs : List Char) : lexed (Text.trimLeft cs) = lexed cs := by
  have hgap : (cs.takeWhile Text.isBlank).all Text.isBlank = true := List.all_takeWhile
  have hsplit := lexed_blanks hgap (Text.trimLeft cs)
  rw [Text.trimLeft, List.takeWhile_append_dropWhile] at hsplit
  exact hsplit.symm

theorem lexed_trimRight (cs : List Char) : lexed (Text.trimRight cs) = lexed cs := by
  have hgap : (cs.reverse.takeWhile Text.isBlank).reverse.all Text.isBlank = true := by
    rw [List.all_reverse]
    exact List.all_takeWhile
  have hends : EndsWord (cs.reverse.takeWhile Text.isBlank).reverse := by
    intro c hc
    have hblank := List.all_eq_true.mp hgap c (List.mem_of_head? hc)
    simp [isWordPart, hblank]
  have hsplit : Text.trimRight cs ++ (cs.reverse.takeWhile Text.isBlank).reverse = cs := by
    rw [Text.trimRight, ← List.reverse_append, List.takeWhile_append_dropWhile,
      List.reverse_reverse]
  have hnone := lexed_blanks hgap []
  have hparted : Parted (Text.trimRight cs) _ := Or.inr hends
  have hlexed := lexed_append hparted
  rw [List.append_nil, lexed_nil] at hnone
  rw [hsplit, hnone, List.append_nil] at hlexed
  exact hlexed.symm

/-- Blanks around a text are not read. -/
theorem lexed_trim (cs : List Char) : lexed (Text.trim cs) = lexed cs := by
  rw [Text.trim, lexed_trimRight, lexed_trimLeft]

/-! ## Where lexemes stand -/

/-- A lexeme that nothing makes longer is the first one of the text. -/
theorem lexemesFrom_lexeme (hl : l.Sound) (hback : Parted l.chars back) (pos : Nat) :
    lexemesFrom pos (l.chars ++ back) =
      ⟨pos, l⟩ :: lexemesFrom (pos + l.chars.length) back := by
  cases l with
  | opening => rfl
  | closing => rfl
  | word word => exact lexemesFrom_word hl.1 hl.2 (hback.endsWord hl.1 hl.2) pos

/-- A lexeme by itself is a text with one lexeme. -/
theorem lexed_chars (hl : l.Sound) : lexed l.chars = [l] := by
  have hfirst := lexemesFrom_lexeme hl (Or.inr endsWord_nil) 0
  rw [List.append_nil] at hfirst
  rw [lexed, lexemes, hfirst]
  rfl

/-- What holds of the empty text, and stays true when a blank or a whole lexeme is put in front of a
text, holds of every text. -/
@[elab_as_elim]
theorem induction_on_lexemes {motive : List Char → Prop} (nil : motive [])
    (blank : ∀ c cs, Text.isBlank c = true → motive cs → motive (c :: cs))
    (lexeme : ∀ (l : Lexeme) (rest : List Char), l.Sound → Parted l.chars rest → motive rest →
      motive (l.chars ++ rest)) (cs : List Char) : motive cs := by
  fun_induction tokens cs with
  | case1 => exact nil
  | case2 cs ih => exact lexeme .opening cs trivial (parted_singleton (by decide) cs) ih
  | case3 cs _ ih => exact lexeme .closing cs trivial (parted_singleton (by decide) cs) ih
  | case4 c cs _ _ hblank ih => exact blank c cs hblank ih
  | case5 c cs hopen hclose hblank ih =>
    have hword := all_isWordPart_cons_takeWhile hopen hclose hblank cs
    have hmotive := lexeme (.word _) _ ⟨List.cons_ne_nil c _, hword⟩
      (Or.inr (endsWord_dropWhile cs)) ih
    rwa [Lexeme.chars, List.cons_append, List.takeWhile_append_dropWhile] at hmotive

/-- **Every lexeme stands in the text where it says**, and the text can be cut in front of it and
behind it. -/
theorem exists_cut_around (h : lexemesFrom pos cs = ts ++ t :: ts') :
    ∃ front back, cs = front ++ (t.lexeme.chars ++ back) ∧ t.lexeme.Sound ∧
      Parted front (t.lexeme.chars ++ back) ∧ Parted t.lexeme.chars back ∧
      t.start = pos + front.length ∧ lexemesFrom pos front = ts ∧
      lexemesFrom t.stop back = ts' := by
  induction cs using induction_on_lexemes generalizing pos ts with
  | nil => simp [lexemesFrom] at h
  | blank c cs hblank ih =>
    rw [lexemesFrom_blank hblank] at h
    obtain ⟨front, back, rfl, hsound, hfront, hback, hstart, hts, hts'⟩ := ih h
    have hc : isWordPart c = false := by simp [isWordPart, hblank]
    refine ⟨c :: front, back, rfl, hsound, ?_, hback, ?_, ?_, hts'⟩
    · exact hfront.append_left (parted_singleton hc _)
    · rw [hstart, List.length_cons, Nat.add_right_comm, Nat.add_assoc]
    · rw [lexemesFrom_blank hblank, hts]
  | lexeme l rest hl hparted ih =>
    rw [lexemesFrom_lexeme hl hparted] at h
    cases ts with
    | nil =>
      obtain ⟨rfl, rfl⟩ := List.cons.inj h
      refine ⟨[], rest, rfl, hl, parted_nil _, hparted, rfl, rfl, ?_⟩
      rw [Located.stop_eq]
    | cons t₀ ts =>
      obtain ⟨rfl, hrest⟩ := List.cons.inj h
      obtain ⟨front, back, rfl, hsound, hfront, hback, hstart, hts, hts'⟩ := ih hrest
      refine ⟨l.chars ++ front, back, (List.append_assoc ..).symm, hsound, ?_, hback, ?_, ?_, hts'⟩
      · exact hfront.append_left hparted
      · rw [hstart, List.length_append, Nat.add_assoc]
      · rw [lexemesFrom_lexeme hl hparted.of_append, hts]

/-- The same of lexemes without their offsets. -/
theorem exists_cut_around_lexed (h : lexed cs = ls ++ l :: ls') :
    ∃ front back, cs = front ++ (l.chars ++ back) ∧ l.Sound ∧ Parted front (l.chars ++ back) ∧
      Parted l.chars back ∧ lexed front = ls ∧ lexed back = ls' := by
  obtain ⟨ts, ts₂, hlexemes, rfl, hts₂⟩ := List.map_eq_append_iff.mp h
  obtain ⟨t, ts', rfl, rfl, rfl⟩ := List.map_eq_cons_iff.mp hts₂
  obtain ⟨front, back, rfl, hsound, hfront, hback, -, rfl, rfl⟩ := exists_cut_around hlexemes
  exact ⟨front, back, rfl, hsound, hfront, hback, rfl, (map_lexeme_lexemesFrom _ _).symm⟩

/-- **A text can be cut in front of every lexeme**, and what stands right behind the cut is no
blank. -/
theorem exists_cut (h : lexed cs = ls ++ l :: ls') :
    ∃ front c back, cs = front ++ c :: back ∧ Parted front (c :: back) ∧
      Text.isBlank c = false ∧ lexed front = ls ∧ lexed (c :: back) = l :: ls' := by
  obtain ⟨front, back, rfl, hsound, hfront, hback, hls, hls'⟩ := exists_cut_around_lexed h
  obtain ⟨c, chars, hchars⟩ := List.exists_cons_of_ne_nil hsound.chars_ne_nil
  have hmem : c ∈ l.chars := by rw [hchars]; exact List.mem_cons_self
  have hlexed : lexed (l.chars ++ back) = l :: lexed back := by
    rw [lexed, lexemes, lexemesFrom_lexeme hsound hback, List.map_cons, map_lexeme_lexemesFrom]
  rw [hls', hchars, List.cons_append] at hlexed
  rw [hchars, List.cons_append] at hfront
  exact ⟨front, c, chars ++ back, by rw [hchars, List.cons_append], hfront,
    hsound.isBlank_of_mem hmem, hls, hlexed⟩

/-- A text without lexemes is made of blanks. -/
theorem isBlank_of_lexed_eq_nil (h : lexed cs = []) (hc : c ∈ cs) : Text.isBlank c = true := by
  induction cs using induction_on_lexemes with
  | nil => cases hc
  | blank d cs hblank ih =>
    rw [lexed_blank hblank] at h
    rcases List.mem_cons.mp hc with rfl | hc
    · exact hblank
    · exact ih h hc
  | lexeme l rest hl hparted ih =>
    rw [lexed, lexemes, lexemesFrom_lexeme hl hparted] at h
    cases h

/-- No lexeme reaches over the end of the text. -/
theorem stop_le_of_mem_lexemesFrom (ht : t ∈ lexemesFrom pos cs) : t.stop ≤ pos + cs.length := by
  obtain ⟨ts, ts', hsplit⟩ := List.append_of_mem ht
  obtain ⟨front, back, rfl, -, -, -, hstart, -, -⟩ := exists_cut_around hsplit
  rw [t.stop_eq, hstart, List.length_append, List.length_append]
  omega

/-- What stands right behind a cut is the first lexeme, unless it is a blank. -/
theorem exists_lexemesFrom_eq_cons (hc : Text.isBlank c = false) (pos : Nat) (cs : List Char) :
    ∃ t ts, lexemesFrom pos (c :: cs) = t :: ts ∧ t.start = pos ∧
      (t.lexeme = .closing ↔ c = ')') := by
  by_cases hopen : c = '('
  · rw [hopen]
    exact ⟨_, _, lexemesFrom_opening pos cs, rfl, by simp⟩
  · by_cases hclose : c = ')'
    · rw [hclose]
      exact ⟨_, _, lexemesFrom_closing pos cs, rfl, by simp⟩
    · rw [lexemesFrom_wordPart (isWordPart_iff.mpr ⟨hc, hopen, hclose⟩), Located.consWord.eq_def]
      split
      · split
        · exact ⟨_, _, rfl, rfl, by simp [hclose]⟩
        · exact ⟨_, _, rfl, rfl, by simp [hclose]⟩
      · exact ⟨_, _, rfl, rfl, by simp [hclose]⟩

/-! ## Texts that go on -/

/-- The lexemes of a text, and those of a text that begins with it: the last word may be longer, and
more may follow. -/
inductive Grown : List Located → List Located → Prop where
  /-- more follows -/
  | nil (ts' : List Located) : Grown [] ts'
  /-- the last word is longer, or just as long, and more follows -/
  | word (start : Nat) (word more : List Char) (ts' : List Located) :
      Grown [⟨start, .word word⟩] (⟨start, .word (word ++ more)⟩ :: ts')
  /-- a lexeme is the same in both -/
  | cons (t : Located) {ts ts' : List Located} (h : Grown ts ts') : Grown (t :: ts) (t :: ts')

theorem Grown.append_left (h : Grown ts ts') (front : List Located) :
    Grown (front ++ ts) (front ++ ts') := by
  induction front with
  | nil => exact h
  | cons t front ih => exact ih.cons t

/-- A character in front joins the same word in both texts, or in the longer one a word that was
not there before. -/
theorem Grown.consWord (h : Grown ts ts') (pos : Nat) (c : Char) :
    Grown (Located.consWord pos c ts) (Located.consWord pos c ts') := by
  cases h with
  | nil ts' =>
    rcases ts' with _ | ⟨⟨start, _ | _ | word⟩, ts'⟩
    · exact .word pos [c] [] []
    · exact .word pos [c] [] _
    · exact .word pos [c] [] _
    · rw [Located.consWord.eq_def pos c (_ :: _)]
      dsimp only
      split
      · exact .word pos [c] word ts'
      · exact .word pos [c] [] _
  | word start word more ts' =>
    rw [Located.consWord, Located.consWord]
    split
    · exact .word pos (c :: word) more ts'
    · exact .cons _ (.word start word more ts')
  | cons t h =>
    obtain ⟨start, _ | _ | word⟩ := t
    · exact .cons _ (.cons _ h)
    · exact .cons _ (.cons _ h)
    · rw [Located.consWord, Located.consWord]
      split
      · exact .cons _ h
      · exact .cons _ (.cons _ h)

/-- **What a text begins with says how its lexemes begin.** -/
theorem grown_lexemesFrom_append (pos : Nat) (cs more : List Char) :
    Grown (lexemesFrom pos cs) (lexemesFrom pos (cs ++ more)) := by
  induction cs generalizing pos with
  | nil => exact .nil _
  | cons c cs ih =>
    rw [List.cons_append]
    cases hc : isWordPart c with
    | false =>
      obtain ⟨ts, hts⟩ := exists_lexemesFrom_cons hc pos
      rw [hts, hts]
      exact (ih (pos + 1)).append_left ts
    | true =>
      rw [lexemesFrom_wordPart hc, lexemesFrom_wordPart hc]
      exact (ih (pos + 1)).consWord pos c

end TreeRules
