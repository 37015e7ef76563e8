import TreeRules.Proofs.Expr.RoundTrip
import TreeRules.Proofs.Rule.DarkText

/-!
# Parentheses and arrows

Two things are found by counting the parentheses of a text: whether it is complete
(`openParens`), and where its arrow is (`arrowFrom`). Both depend on the tokens of the text only,
and the tokens of trees open as many lists as they close. So a text of trees is complete
(`openParens_of_parseAllChars`), and whether it has an arrow outside parentheses is seen in any
other text of the same trees (`isSome_arrowFrom`).

A text without an arrow can be passed over: what is looked for behind it is looked for at the depth
that the text leaves (`arrowFrom_append_of_eq_none`). So a rule line is cut at its first arrow, and
only there (`SplitLine.exists_of_ofLine?`, `SplitLine.ofLine?_of_arrow`).
-/

namespace TreeRules

open Text

variable {c : Char} {cs ds line more word : List Char} {depth : Int} {pos : Nat} {e : Expr}
  {es : List Expr}

/-! ## Counting parentheses -/

@[simp] theorem openParens_nil : openParens [] = 0 := rfl

theorem openParens_append (cs ds : List Char) :
    openParens (cs ++ ds) = openParens cs + openParens ds := by
  simp only [openParens, List.count_append]
  omega

theorem openParens_opening (cs : List Char) : openParens ('(' :: cs) = openParens cs + 1 := by
  rw [openParens, openParens, List.count_cons_self, List.count_cons_of_ne (by decide)]
  omega

theorem openParens_closing (cs : List Char) : openParens (')' :: cs) = openParens cs - 1 := by
  rw [openParens, openParens, List.count_cons_self, List.count_cons_of_ne (by decide)]
  omega

theorem openParens_cons_of_ne_paren (hopen : c ≠ '(') (hclose : c ≠ ')') (cs : List Char) :
    openParens (c :: cs) = openParens cs := by
  rw [openParens, openParens, List.count_cons_of_ne hopen, List.count_cons_of_ne hclose]

/-- Only parentheses count. -/
theorem openParens_of_forall (h : ∀ c ∈ cs, c ≠ '(' ∧ c ≠ ')') : openParens cs = 0 := by
  rw [openParens, List.count_eq_zero_of_not_mem fun hmem => (h _ hmem).1 rfl,
    List.count_eq_zero_of_not_mem fun hmem => (h _ hmem).2 rfl]
  rfl

theorem openParens_blank (hc : isBlank c = true) (cs : List Char) :
    openParens (c :: cs) = openParens cs :=
  openParens_cons_of_ne_paren (ne_paren_of_isBlank hc).1 (ne_paren_of_isBlank hc).2 cs

/-- Blanks do not count. -/
theorem openParens_dark (cs : List Char) : openParens (dark cs) = openParens cs := by
  induction cs with
  | nil => rfl
  | cons c cs ih =>
    cases hc : isBlank c with
    | true => rw [dark_blank hc, ih, openParens_blank hc]
    | false =>
      rw [dark_cons hc, ← List.singleton_append, openParens_append, ih, ← openParens_append,
        List.singleton_append]

theorem openParens_trimLeft (cs : List Char) : openParens (trimLeft cs) = openParens cs := by
  rw [← openParens_dark, dark_trimLeft, openParens_dark]

theorem openParens_trim (cs : List Char) : openParens (trim cs) = openParens cs := by
  rw [← openParens_dark, dark_trim, openParens_dark]

/-- No character of a word is a parenthesis. -/
theorem openParens_word (hword : word.all isWordPart = true) : openParens word = 0 :=
  openParens_of_forall fun c hc => (isWordPart_iff.mp (List.all_eq_true.mp hword c hc)).2

namespace Expr

mutual

/-- The lexemes of a tree close all lists that they open. -/
theorem openParens_spelling (e : Expr) : openParens (e.spelling.flatMap Lexeme.chars) = 0 := by
  match e with
  | .atom x =>
    rw [spelling_atom, List.flatMap_singleton]
    exact openParens_word (all_isWordPart_chars x)
  | .marker x s =>
    rw [spelling_marker, List.flatMap_singleton]
    exact openParens_word (all_isWordPart_markerChars x s)
  | .list cs =>
    rw [spelling_list, List.flatMap_cons, List.flatMap_append, openParens_append, openParens_append,
      openParens_spellings cs]
    rfl

/-- The lexemes of several trees close all lists that they open. -/
theorem openParens_spellings (es : List Expr) :
    openParens ((spellings es).flatMap Lexeme.chars) = 0 := by
  match es with
  | [] => rfl
  | e :: es =>
    rw [spellings_cons, List.flatMap_append, openParens_append, openParens_spelling e,
      openParens_spellings es]
    rfl

end

/-- The count depends on the tokens only. -/
theorem openParens_eq_flatMap_lexed (cs : List Char) :
    openParens cs = openParens ((lexed cs).flatMap Lexeme.chars) := by
  rw [lexed_eq_tokens, flatMap_chars_tokens, openParens_dark]

/-- **A text of trees is complete.** -/
theorem openParens_of_parseAllChars (h : parseAllChars cs = .ok es) : openParens cs = 0 := by
  rw [openParens_eq_flatMap_lexed, lexed_of_parseAllChars h, openParens_spellings]

theorem openParens_of_lexed (h : lexed cs = e.spelling) : openParens cs = 0 := by
  rw [openParens_eq_flatMap_lexed, h, openParens_spelling]

theorem openParens_darkText (e : Expr) : openParens e.darkText = 0 := openParens_spelling e

end Expr

/-! ## Looking for an arrow -/

/-- An arrow is looked for at the depth that the text in front leaves, if there is none in the text
and none that ends behind it. -/
theorem arrowFrom_append_of_eq_none (h : arrowFrom depth pos cs = none)
    (hmore : cs.getLast? = some '=' → more.head? ≠ some '>') :
    arrowFrom depth pos (cs ++ more) =
      arrowFrom (depth + openParens cs) (pos + cs.length) more := by
  induction cs generalizing depth pos with
  | nil => rw [List.nil_append, openParens_nil, Int.add_zero, List.length_nil, Nat.add_zero]
  | cons c cs ih =>
    have hlength : pos + (c :: cs).length = pos + 1 + cs.length := by
      rw [List.length_cons]
      omega
    have hrest : cs.getLast? = some '=' → more.head? ≠ some '>' := by
      intro hlast
      exact hmore (by rw [List.getLast?_cons, hlast, Option.getD_some])
    rw [hlength, List.cons_append]
    by_cases hopen : c = '('
    · rw [hopen] at h ⊢
      rw [arrowFrom, ih h hrest, openParens_opening, Int.add_assoc, Int.add_comm 1]
    · by_cases hclose : c = ')'
      · rw [hclose] at h ⊢
        rw [arrowFrom, ih h hrest, openParens_closing]
        congr 1
        omega
      · rw [arrowFrom_cons_of_ne_paren hopen hclose] at h
        rw [arrowFrom_cons_of_ne_paren hopen hclose, openParens_cons_of_ne_paren hopen hclose]
        split at h
        · cases h
        · rename_i hnot
          have hnot' : ¬ (depth ≤ 0 ∧ c = '=' ∧ (cs ++ more).head? = some '>') := by
            rintro ⟨hdepth, hequal, hhead⟩
            cases cs with
            | nil => exact hmore (congrArg some hequal) hhead
            | cons d cs => exact hnot ⟨hdepth, hequal, hhead⟩
          rw [if_neg hnot', ih h hrest]

/-- Where a text starts makes no difference to whether it has an arrow. -/
theorem isSome_arrowFrom_pos (depth : Int) (pos pos' : Nat) (cs : List Char) :
    (arrowFrom depth pos cs).isSome = (arrowFrom depth pos' cs).isSome := by
  induction cs generalizing depth pos pos' with
  | nil => rfl
  | cons c cs ih =>
    by_cases hopen : c = '('
    · rw [hopen, arrowFrom, arrowFrom, ih]
    · by_cases hclose : c = ')'
      · rw [hclose, arrowFrom, arrowFrom, ih]
      · rw [arrowFrom_cons_of_ne_paren hopen hclose, arrowFrom_cons_of_ne_paren hopen hclose]
        split
        · rfl
        · exact ih depth (pos + 1) (pos' + 1)

/-- Is there an arrow in one of the words outside parentheses? -/
def arrowAmong (depth : Int) : List Lexeme → Bool
  | [] => false
  | .opening :: ts => arrowAmong (depth + 1) ts
  | .closing :: ts => arrowAmong (depth - 1) ts
  | .word cs :: ts => (arrowFrom depth 0 cs).isSome || arrowAmong depth ts

/-- An arrow does not reach over the end of a word. -/
theorem isSome_arrowFrom_word (hword : word.all isWordPart = true) (hmore : EndsWord more)
    (depth : Int) (pos : Nat) :
    (arrowFrom depth pos (word ++ more)).isSome =
      ((arrowFrom depth 0 word).isSome || (arrowFrom depth 0 more).isSome) := by
  rw [isSome_arrowFrom_pos depth 0 pos word]
  cases hfound : arrowFrom depth pos word with
  | some offset =>
    rw [arrowFrom_append hfound]
    rfl
  | none =>
    have hhead : more.head? ≠ some '>' := by
      intro heq
      exact absurd (hmore '>' heq) (by decide)
    rw [arrowFrom_append_of_eq_none hfound fun _ => hhead, openParens_word hword, Int.add_zero,
      isSome_arrowFrom_pos depth _ 0]
    rfl

/-- **Whether a text has an arrow outside parentheses depends on its tokens only.** -/
theorem isSome_arrowFrom (depth : Int) (pos : Nat) (cs : List Char) :
    (arrowFrom depth pos cs).isSome = arrowAmong depth (tokens cs) := by
  fun_induction tokens cs generalizing depth pos with
  | case1 => rfl
  | case2 cs ih => rw [arrowFrom, ih, arrowAmong]
  | case3 cs _ ih => rw [arrowFrom, ih, arrowAmong]
  | case4 c cs hopen hclose hblank ih =>
    have hequal : c ≠ '=' := by
      rintro rfl
      exact absurd hblank (by decide)
    rw [arrowFrom_cons_of_ne_paren hopen hclose, if_neg fun h => hequal h.2.1, ih]
  | case5 c cs hopen hclose hblank ih =>
    have hword := all_isWordPart_cons_takeWhile hopen hclose hblank cs
    have hsplit := isSome_arrowFrom_word hword (endsWord_dropWhile cs) depth pos
    rw [List.cons_append, List.takeWhile_append_dropWhile] at hsplit
    rw [hsplit, arrowAmong, ih]

/-- Texts of the same tokens both have an arrow or both have none. -/
theorem arrow?_eq_none_of_lexed_eq (h : lexed cs = lexed ds) (hnone : arrow? cs = none) :
    arrow? ds = none := by
  rw [lexed_eq_tokens, lexed_eq_tokens] at h
  have hcs := isSome_arrowFrom 0 0 cs
  have hds := isSome_arrowFrom 0 0 ds
  rw [arrow?] at hnone ⊢
  rw [← h, ← hcs, hnone] at hds
  simpa using hds

/-! ## Cutting a line at its arrow -/

/-- A line is cut at its first arrow, so there is none in front of the cut. -/
theorem exists_front_of_arrow? {offset : Nat} (h : arrow? cs = some offset) :
    ∃ front back, cs = front ++ '=' :: '>' :: back ∧ offset = front.length ∧
      arrow? front = none := by
  obtain ⟨front, back, rfl, hoffset⟩ := eq_of_arrowFrom h
  rw [Nat.zero_add] at hoffset
  refine ⟨front, back, rfl, hoffset, ?_⟩
  cases hearlier : arrow? front with
  | none => rfl
  | some offset' =>
    -- it would be the first one of the whole text as well
    have hsame : arrow? (front ++ '=' :: '>' :: back) = some offset' := arrowFrom_append hearlier _
    rw [h] at hsame
    obtain ⟨front', back', hfront, hoffset'⟩ := eq_of_arrowFrom hearlier
    have hlength := congrArg List.length hfront
    rw [List.length_append, List.length_cons] at hlength
    have := Option.some.inj hsame
    omega

/-- What a line holds that a rule is read from. -/
theorem SplitLine.exists_of_ofLine? {s : SplitLine} (h : ofLine? line = some s) :
    (trim line).head? ≠ some '#' ∧
      (HeadedLine.ofLine (trim line)).rest = s.pattern ++ '=' :: '>' :: s.template ∧
      arrow? s.pattern = none ∧ s.name = (HeadedLine.ofLine (trim line)).name ∧
      s.description = (HeadedLine.ofLine (trim line)).description := by
  unfold ofLine? at h
  split at h
  · cases h
  · cases h
  · rename_i hcomment
    obtain ⟨offset, harrow, rfl⟩ := Option.map_eq_some_iff.mp h
    obtain ⟨front, back, hrest, rfl, hnone⟩ := exists_front_of_arrow? harrow
    have htake : (HeadedLine.ofLine (trim line)).rest.take front.length = front := by
      rw [hrest, List.take_left]
    have hdrop : (HeadedLine.ofLine (trim line)).rest.drop (front.length + 2) = back := by
      rw [hrest, ← List.drop_drop, List.drop_left]
      rfl
    refine ⟨fun hhead => ?_, ?_, ?_, rfl, rfl⟩
    · obtain ⟨cs, heq⟩ := List.head?_eq_some_iff.mp hhead
      exact hcomment cs heq
    · rw [htake, hdrop, hrest]
    · rw [htake, hnone]

/-- A line is cut at an arrow that has no other one in front of it. -/
theorem SplitLine.ofLine?_of_arrow {name description : Option String} {front back : List Char}
    (htrim : trim line = c :: cs) (hcomment : c ≠ '#')
    (hheader : HeadedLine.ofLine (c :: cs) = ⟨name, description, front ++ '=' :: '>' :: back⟩)
    (harrow : arrow? (front ++ '=' :: '>' :: back) = some front.length) :
    ofLine? line = some ⟨name, description, front, back⟩ := by
  unfold ofLine?
  rw [htrim]
  split
  · rename_i heq
    cases heq
  · rename_i heq
    exact absurd (List.cons.inj heq).1 hcomment
  · have hdrop : (front ++ '=' :: '>' :: back).drop (front.length + 2) = back := by
      rw [← List.drop_drop, List.drop_left]
      rfl
    simp only [hheader, harrow, Option.map_some, List.take_left, hdrop]

end TreeRules
