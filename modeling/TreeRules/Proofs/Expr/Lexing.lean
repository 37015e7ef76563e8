import TreeRules.Expr.Lexeme

/-!
# The lexemes of a text, without their offsets

Offsets matter for the reports of errors only. What a text says are the lexemes by themselves:
`lexed` forgets where they stand. It can be computed from left to right:

* a parenthesis is a lexeme, whatever is around it (`lexed_opening`, `lexed_closing`);
* a blank is dropped (`lexed_blank`);
* a word is all of the word characters up to the next blank, parenthesis or end (`lexed_word`).
-/

namespace TreeRules

variable {c : Char} {word rest : List Char}

/-- The lexemes of a text, without their offsets. -/
def lexed (cs : List Char) : List Lexeme := (lexemes cs).map Located.lexeme

/-- The characters of a lexeme. -/
def Lexeme.chars : Lexeme → List Char
  | .opening => ['(']
  | .closing => [')']
  | .word cs => cs

/-- A lexeme ends as many characters behind its start as it has. -/
theorem Located.stop_eq (t : Located) : t.stop = t.start + t.lexeme.chars.length := by
  obtain ⟨start, _ | _ | word⟩ := t <;> rfl

/-! ## Moving a text -/

namespace Located

/-- The same lexeme, `n` characters further on. -/
def shift (n : Nat) (t : Located) : Located := ⟨t.start + n, t.lexeme⟩

/-- Whether a character joins a word does not depend on where they stand. -/
theorem consWord_shift (pos n : Nat) (c : Char) (ts : List Located) :
    consWord (pos + n) c (ts.map (shift n)) = (consWord pos c ts).map (shift n) := by
  rcases ts with _ | ⟨⟨start, _ | _ | cs⟩, ts⟩
  · rfl
  · rfl
  · rfl
  · simp only [List.map_cons, shift, consWord, Nat.add_right_comm pos n 1, Nat.add_right_cancel_iff]
    split <;> rfl

end Located

/-- A text that starts further on has the same lexemes, all of them further on. -/
theorem lexemesFrom_shift (pos n : Nat) (cs : List Char) :
    lexemesFrom (pos + n) cs = (lexemesFrom pos cs).map (Located.shift n) := by
  induction cs generalizing pos with
  | nil => rfl
  | cons c cs ih =>
    have hrest := ih (pos + 1)
    rw [Nat.add_right_comm] at hrest
    rw [lexemesFrom, lexemesFrom, hrest, Located.consWord_shift]
    split
    · rfl
    · split
      · rfl
      · split <;> rfl

/-- What the lexemes are does not depend on where the text starts. -/
theorem map_lexeme_lexemesFrom (pos : Nat) (cs : List Char) :
    (lexemesFrom pos cs).map Located.lexeme = lexed cs := by
  have hmove := lexemesFrom_shift 0 pos cs
  rw [Nat.zero_add] at hmove
  rw [hmove, List.map_map]
  rfl

/-! ## Parentheses and blanks -/

/-- A blank is no parenthesis. -/
theorem ne_paren_of_isBlank (hc : Text.isBlank c = true) : c ≠ '(' ∧ c ≠ ')' := by
  constructor
  · rintro rfl
    exact absurd hc (by decide)
  · rintro rfl
    exact absurd hc (by decide)

theorem lexemesFrom_opening (pos : Nat) (cs : List Char) :
    lexemesFrom pos ('(' :: cs) = ⟨pos, .opening⟩ :: lexemesFrom (pos + 1) cs := rfl

theorem lexemesFrom_closing (pos : Nat) (cs : List Char) :
    lexemesFrom pos (')' :: cs) = ⟨pos, .closing⟩ :: lexemesFrom (pos + 1) cs := rfl

theorem lexemesFrom_blank (hc : Text.isBlank c = true) (pos : Nat) (cs : List Char) :
    lexemesFrom pos (c :: cs) = lexemesFrom (pos + 1) cs := by
  obtain ⟨hopen, hclose⟩ := ne_paren_of_isBlank hc
  rw [lexemesFrom, if_neg hopen, if_neg hclose, if_pos hc]

/-- Blanks are dropped, but they take their room. -/
theorem lexemesFrom_blanks {gap : List Char} (hgap : gap.all Text.isBlank = true) (pos : Nat)
    (cs : List Char) : lexemesFrom pos (gap ++ cs) = lexemesFrom (pos + gap.length) cs := by
  induction gap generalizing pos with
  | nil => rfl
  | cons c gap ih =>
    rw [List.all_cons, Bool.and_eq_true] at hgap
    rw [List.cons_append, lexemesFrom_blank hgap.1, ih hgap.2, List.length_cons,
      Nat.add_right_comm, Nat.add_assoc]

@[simp] theorem lexed_nil : lexed [] = [] := rfl

@[simp] theorem lexed_opening (cs : List Char) : lexed ('(' :: cs) = .opening :: lexed cs := by
  rw [lexed, lexemes, lexemesFrom_opening, List.map_cons, map_lexeme_lexemesFrom]

@[simp] theorem lexed_closing (cs : List Char) : lexed (')' :: cs) = .closing :: lexed cs := by
  rw [lexed, lexemes, lexemesFrom_closing, List.map_cons, map_lexeme_lexemesFrom]

theorem lexed_replicate_closing (n : Nat) :
    lexed (List.replicate n ')') = List.replicate n .closing := by
  induction n with
  | zero => rfl
  | succ n ih => rw [List.replicate_succ, List.replicate_succ, lexed_closing, ih]

theorem lexed_blank (hc : Text.isBlank c = true) (cs : List Char) : lexed (c :: cs) = lexed cs := by
  rw [lexed, lexemes, lexemesFrom_blank hc, map_lexeme_lexemesFrom]

/-- Any number of blanks is dropped. -/
theorem lexed_blanks {gap : List Char} (hgap : gap.all Text.isBlank = true) (cs : List Char) :
    lexed (gap ++ cs) = lexed cs := by
  rw [lexed, lexemes, lexemesFrom_blanks hgap, map_lexeme_lexemesFrom]

/-! ## Words -/

/-- Word characters are neither blanks nor parentheses. -/
theorem isWordPart_iff :
    isWordPart c = true ↔ Text.isBlank c = false ∧ c ≠ '(' ∧ c ≠ ')' := by
  simp [isWordPart, and_assoc]

/-- A word ends in front of the text: it is empty, or it starts with a blank or a parenthesis. -/
def EndsWord (rest : List Char) : Prop := ∀ c ∈ rest.head?, isWordPart c = false

theorem endsWord_nil : EndsWord [] := fun _ hc => by cases hc

theorem endsWord_cons (hc : isWordPart c = false) (cs : List Char) : EndsWord (c :: cs) := by
  intro d hd
  obtain rfl := Option.some.inj hd
  exact hc

theorem endsWord_blank (hc : Text.isBlank c = true) (cs : List Char) : EndsWord (c :: cs) :=
  endsWord_cons (by simp [isWordPart, hc]) cs

/-- Blanks end the word in front of them. -/
theorem endsWord_blanks {gap : List Char} (hne : gap ≠ []) (hgap : gap.all Text.isBlank = true)
    (rest : List Char) : EndsWord (gap ++ rest) := by
  cases gap with
  | nil => exact absurd rfl hne
  | cons c gap =>
    rw [List.all_cons, Bool.and_eq_true] at hgap
    exact endsWord_blank hgap.1 (gap ++ rest)

theorem lexemesFrom_wordPart (hc : isWordPart c = true) (pos : Nat) (cs : List Char) :
    lexemesFrom pos (c :: cs) = Located.consWord pos c (lexemesFrom (pos + 1) cs) := by
  obtain ⟨hblank, hopen, hclose⟩ := isWordPart_iff.mp hc
  rw [lexemesFrom, if_neg hopen, if_neg hclose, if_neg (by simp [hblank])]

/-- No lexeme stands in front of the text. -/
theorem le_start_of_mem_lexemesFrom {pos : Nat} {cs : List Char} {t : Located}
    (ht : t ∈ lexemesFrom pos cs) : pos ≤ t.start := by
  have hmove := lexemesFrom_shift 0 pos cs
  rw [Nat.zero_add] at hmove
  rw [hmove] at ht
  obtain ⟨t', -, rfl⟩ := List.mem_map.mp ht
  exact Nat.le_add_left pos t'.start

/-- A character joins no word that starts further on than right behind it. -/
theorem consWord_of_lt {pos : Nat} {ts : List Located} (hts : ∀ t ∈ ts, pos + 1 < t.start)
    (c : Char) : Located.consWord pos c ts = ⟨pos, .word [c]⟩ :: ts := by
  rcases ts with _ | ⟨⟨start, _ | _ | cs⟩, ts⟩
  · rfl
  · rfl
  · rfl
  · have hstart : pos + 1 < start := hts _ (List.mem_cons_self ..)
    rw [Located.consWord, if_neg (Nat.ne_of_gt hstart)]

/-- The last character of a word has nothing to join. -/
theorem consWord_of_endsWord (hrest : EndsWord rest) (pos : Nat) (c : Char) :
    Located.consWord pos c (lexemesFrom (pos + 1) rest) =
      ⟨pos, .word [c]⟩ :: lexemesFrom (pos + 1) rest := by
  cases rest with
  | nil => rfl
  | cons d rest =>
    have hd : isWordPart d = false := hrest d rfl
    rw [lexemesFrom]
    split
    · rfl
    · rename_i hopen
      split
      · rfl
      · rename_i hclose
        have hblank : Text.isBlank d = true := by
          simpa [isWordPart, hopen, hclose] using hd
        rw [if_pos hblank]
        -- behind the blank a word may start, but not where this one ends
        exact consWord_of_lt (fun t ht => le_start_of_mem_lexemesFrom ht) c

/-- A word stands where its first character stands. -/
theorem lexemesFrom_word (hne : word ≠ []) (hword : word.all isWordPart = true)
    (hrest : EndsWord rest) (pos : Nat) :
    lexemesFrom pos (word ++ rest) =
      ⟨pos, .word word⟩ :: lexemesFrom (pos + word.length) rest := by
  induction word generalizing pos with
  | nil => exact absurd rfl hne
  | cons c word ih =>
    rw [List.all_cons, Bool.and_eq_true] at hword
    rw [List.cons_append, lexemesFrom_wordPart hword.1]
    cases word with
    | nil => exact consWord_of_endsWord hrest pos c
    | cons d word =>
      rw [ih (List.cons_ne_nil d word) hword.2, Located.consWord, if_pos rfl,
        List.length_cons (a := c), Nat.add_right_comm, Nat.add_assoc]

/-- **A word reaches up to the next blank, parenthesis or end.** -/
theorem lexed_word (hne : word ≠ []) (hword : word.all isWordPart = true)
    (hrest : EndsWord rest) : lexed (word ++ rest) = .word word :: lexed rest := by
  rw [lexed, lexemes, lexemesFrom_word hne hword hrest, List.map_cons, map_lexeme_lexemesFrom]

end TreeRules
