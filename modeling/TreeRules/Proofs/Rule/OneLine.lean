import TreeRules.Proofs.Text.Dark
import TreeRules.Rule.Line

/-!
# Rule lines put on one line

A header ends with its line: what follows a line feed behind the colon is not looked at. So a text
with line feeds may hold a rule only once it is put on one line, but never the other way round
(`isRuleLine_oneLine`). For the header is the same on one line, blanks being blanks, and what is
read behind it only becomes longer (`rest_oneLine`), and the first arrow of a text stays the first
one whatever is added to the text (`arrowFrom_append`).
-/

namespace TreeRules

open Text

variable {c : Char} {cs more : List Char} {depth : Int} {pos offset : Nat}

/-! ## Arrows -/

theorem head?_oneLine_eq_iff {d : Char} (hd : isBlank d = false) (cs : List Char) :
    (oneLine cs).head? = some d ↔ cs.head? = some d := by
  cases cs with
  | nil => rfl
  | cons c cs => simp [spaced_eq_iff hd]

/-- Behind a character that is no parenthesis an arrow is looked for at the same depth, unless it
starts right there. -/
theorem arrowFrom_cons_of_ne_paren (hopen : c ≠ '(') (hclose : c ≠ ')') (depth : Int) (pos : Nat)
    (cs : List Char) :
    arrowFrom depth pos (c :: cs) =
      if depth ≤ 0 ∧ c = '=' ∧ cs.head? = some '>' then some pos
      else arrowFrom depth (pos + 1) cs := by
  rw [arrowFrom]
  · exact hopen
  · exact hclose

theorem arrowFrom_oneLine (depth : Int) (pos : Nat) (cs : List Char) :
    arrowFrom depth pos (oneLine cs) = arrowFrom depth pos cs := by
  induction cs generalizing depth pos with
  | nil => rfl
  | cons c cs ih =>
    by_cases hopen : c = '('
    · rw [hopen, oneLine_cons_of_dark (by decide)]
      exact ih (depth + 1) (pos + 1)
    · by_cases hclose : c = ')'
      · rw [hclose, oneLine_cons_of_dark (by decide)]
        exact ih (depth - 1) (pos + 1)
      · have hopen' : spaced c ≠ '(' := spaced_ne (by decide) hopen
        have hclose' : spaced c ≠ ')' := spaced_ne (by decide) hclose
        have hequal : spaced c = '=' ↔ c = '=' := spaced_eq_iff (by decide)
        have hhead := head?_oneLine_eq_iff (d := '>') (by decide) cs
        rw [oneLine_cons, arrowFrom_cons_of_ne_paren hopen' hclose',
          arrowFrom_cons_of_ne_paren hopen hclose]
        simp only [hequal, hhead, ih]

/-- The first arrow of a text stays the first one when the text goes on. -/
theorem arrowFrom_append (h : arrowFrom depth pos cs = some offset) (more : List Char) :
    arrowFrom depth pos (cs ++ more) = some offset := by
  induction cs generalizing depth pos with
  | nil => cases h
  | cons c cs ih =>
    by_cases hopen : c = '('
    · rw [hopen] at h ⊢
      exact ih h
    · by_cases hclose : c = ')'
      · rw [hclose] at h ⊢
        exact ih h
      · rw [arrowFrom_cons_of_ne_paren hopen hclose] at h
        rw [List.cons_append, arrowFrom_cons_of_ne_paren hopen hclose]
        -- an arrow is two characters wide, and both of them are in the text
        have hhead : cs ≠ [] → (cs ++ more).head? = cs.head? := by
          intro hne
          rw [List.head?_append, Option.or_of_isSome (List.isSome_head?.mpr hne)]
        split at h
        · rename_i harrow
          have hne : cs ≠ [] := by
            rintro rfl
            exact absurd harrow.2.2 (by simp)
          rw [hhead hne, if_pos harrow]
          exact h
        · rename_i hnot
          have hne : cs ≠ [] := by
            rintro rfl
            cases h
          rw [hhead hne, if_neg hnot]
          exact ih h

/-! ## Headers -/

namespace HeadedLine

/-- The text behind the first header, put on one line, is continued by the one behind the second. -/
def GoesOn (h h' : HeadedLine) : Prop := ∃ more, h'.rest = oneLine h.rest ++ more

theorem body?_oneLine (h : EndsDark cs) :
    (body? cs = none ∧ body? (oneLine cs) = none) ∨
      ∃ body more, body? cs = some body ∧ body? (oneLine cs) = some (oneLine body ++ more) := by
  cases htrim : trimLeft cs with
  | nil =>
    left
    rw [h.eq_nil htrim]
    exact ⟨rfl, rfl⟩
  | cons c rest =>
    right
    refine ⟨(c :: rest).takeWhile (· != '\n'), oneLine ((c :: rest).dropWhile (· != '\n')), ?_, ?_⟩
    · rw [body?, htrim]
    · have hall := takeWhile_ne_newline (newline_notMem_oneLine (c :: rest))
      rw [body?, trimLeft_oneLine, htrim, ← oneLine_append, List.takeWhile_append_dropWhile]
      rw [oneLine_cons] at hall ⊢
      exact congrArg some hall

/-- A quoted text stands between two double quotes, in front of what follows it. -/
theorem eq_of_quotedText? {description rest : List Char}
    (h : quotedText? cs = some (description, rest)) : cs = '"' :: (description ++ '"' :: rest) := by
  unfold quotedText? at h
  split at h
  · rename_i ds
    split at h
    · cases h
    · rename_i d ds' hdrop
      cases h
      obtain rfl : d = '"' := by
        have hhead := List.head?_dropWhile_not (· != '"') ds
        rw [hdrop] at hhead
        simpa using hhead
      rw [← hdrop, List.takeWhile_append_dropWhile]
  · cases h

/-- A quoted text is the same on one line, and so is the text behind it. -/
theorem quotedText?_oneLine (cs : List Char) :
    quotedText? (oneLine cs) = (quotedText? cs).map fun q => (oneLine q.1, oneLine q.2) := by
  cases cs with
  | nil => rfl
  | cons c cs =>
    by_cases hquote : c = '"'
    · rw [hquote, oneLine_cons_of_dark (by decide), quotedText?, quotedText?,
        dropWhile_oneLine (by decide), takeWhile_oneLine (by decide)]
      cases cs.dropWhile (· != '"') with
      | nil => rfl
      | cons d rest => rfl
    · have hquote' : spaced c ≠ '"' := spaced_ne (by decide) hquote
      rw [oneLine_cons, quotedText?, quotedText?]
      · rfl
      · intro ds heq
        exact hquote (List.cons.inj heq).1
      · intro ds heq
        exact hquote' (List.cons.inj heq).1

theorem isNamePart_newline : isNamePart '\n' = false := by decide +kernel

theorem isNamePart_space : isNamePart ' ' = false := by decide +kernel

theorem afterName?_colon (name : String) (rest : List Char) :
    afterName? name (':' :: rest) = (body? rest).map fun body => ⟨some name, none, body⟩ := rfl

theorem afterName?_description (name : String) (hblank : isBlank c = true)
    {description rest : List Char}
    (hquoted : quotedText? (trimLeft cs) = some (description, ':' :: rest)) :
    afterName? name (c :: cs) =
      (body? rest).map fun body => ⟨some name, some (String.ofList description), body⟩ := by
  unfold afterName?
  split
  · rename_i heq
    cases (List.cons.inj heq).1
    cases hblank
  · rename_i heq
    cases heq
    rw [if_pos hblank, hquoted]
    rfl
  · rename_i heq
    cases heq

/-- Behind a name nothing else makes a header. -/
theorem afterName?_eq_none (name : String) (hcolon : c ≠ ':')
    (hquoted : isBlank c = true → ∀ description rest,
      quotedText? (trimLeft cs) ≠ some (description, ':' :: rest)) :
    afterName? name (c :: cs) = none := by
  unfold afterName?
  split
  · rename_i heq
    exact absurd (List.cons.inj heq).1 hcolon
  · rename_i heq
    cases heq
    split
    · rename_i hblank
      split
      · rename_i heq
        exact absurd heq (hquoted hblank _ _)
      · rfl
    · rfl
  · rfl

theorem afterName?_oneLine (name : String) (h : EndsDark cs) :
    (afterName? name cs = none ∧ afterName? name (oneLine cs) = none) ∨
      ∃ line line', afterName? name cs = some line ∧ afterName? name (oneLine cs) = some line' ∧
        GoesOn line line' := by
  cases cs with
  | nil => exact .inl ⟨rfl, rfl⟩
  | cons c cs =>
    by_cases hcolon : c = ':'
    · subst hcolon
      rw [oneLine_cons_of_dark (by decide), afterName?_colon, afterName?_colon]
      rcases body?_oneLine (h.of_suffix (List.suffix_cons ':' cs)) with
        ⟨hbody, hbody'⟩ | ⟨body, more, hbody, hbody'⟩
      · rw [hbody, hbody']
        exact .inl ⟨rfl, rfl⟩
      · rw [hbody, hbody']
        exact .inr ⟨_, _, rfl, rfl, more, rfl⟩
    · have hcolon' : spaced c ≠ ':' := spaced_ne (by decide) hcolon
      have hquoted' := quotedText?_oneLine (trimLeft cs)
      rw [← trimLeft_oneLine] at hquoted'
      by_cases hheader : isBlank c = true ∧
          ∃ description rest, quotedText? (trimLeft cs) = some (description, ':' :: rest)
      · obtain ⟨hblank, description, rest, hquoted⟩ := hheader
        have hblank' : isBlank (spaced c) = true := (isBlank_spaced c).trans hblank
        rw [hquoted, Option.map_some, oneLine_cons_of_dark (by decide)] at hquoted'
        have hsuffix : rest <:+ c :: cs := by
          have hbehind : rest <:+ trimLeft cs := by
            rw [eq_of_quotedText? hquoted]
            exact ⟨'"' :: (description ++ ['"', ':']), by simp⟩
          exact hbehind.trans ((List.dropWhile_suffix _).trans (List.suffix_cons c cs))
        rw [oneLine_cons, afterName?_description name hblank hquoted,
          afterName?_description name hblank' hquoted']
        rcases body?_oneLine (h.of_suffix hsuffix) with
          ⟨hbody, hbody'⟩ | ⟨body, more, hbody, hbody'⟩
        · rw [hbody, hbody']
          exact .inl ⟨rfl, rfl⟩
        · rw [hbody, hbody']
          exact .inr ⟨_, _, rfl, rfl, more, rfl⟩
      · left
        constructor
        · refine afterName?_eq_none name hcolon fun hblank description rest heq => ?_
          exact hheader ⟨hblank, description, rest, heq⟩
        · refine afterName?_eq_none name hcolon' fun hblank description' rest' heq => ?_
          -- a colon behind the description on one line was a colon before
          have hmapped := hquoted'.symm.trans heq
          rw [Option.map_eq_some_iff] at hmapped
          obtain ⟨⟨description, rest⟩, hquoted, hpair⟩ := hmapped
          obtain ⟨d, ds, rfl, hd, -⟩ := List.map_eq_cons_iff.mp (Prod.mk.inj hpair).2
          obtain rfl : d = ':' := (spaced_eq_iff (by decide)).mp hd
          exact hheader ⟨(isBlank_spaced c).symm.trans hblank, description, ds, hquoted⟩

/-- **A header is the same on one line**, and what is read behind it only becomes longer. -/
theorem rest_oneLine (h : EndsDark cs) : GoesOn (ofLine cs) (ofLine (oneLine cs)) := by
  have hplain : GoesOn (plain cs) (plain (oneLine cs)) := ⟨[], (List.append_nil _).symm⟩
  cases cs with
  | nil => exact hplain
  | cons c cs =>
    by_cases hat : c = '@'
    · subst hat
      have hname := takeWhile_oneLine_eq isNamePart_newline isNamePart_space cs
      have htail := dropWhile_oneLine (isNamePart_newline.trans isNamePart_space.symm) cs
      rw [oneLine_cons_of_dark (by decide)] at hplain ⊢
      rw [ofLine, ofLine]
      simp only [hname, htail]
      cases cs.takeWhile isNamePart with
      | nil => exact hplain
      | cons d name =>
        have hsuffix : cs.dropWhile isNamePart <:+ '@' :: cs :=
          (List.dropWhile_suffix _).trans (List.suffix_cons '@' cs)
        rcases afterName?_oneLine (String.ofList (d :: name)) (h.of_suffix hsuffix) with
          ⟨hafter, hafter'⟩ | ⟨line, line', hafter, hafter', hgoesOn⟩
        · simp only [hafter, hafter']
          exact hplain
        · simp only [hafter, hafter']
          exact hgoesOn
    · have hat' : spaced c ≠ '@' := spaced_ne (by decide) hat
      rw [oneLine_cons] at hplain ⊢
      rw [ofLine, ofLine]
      · exact hplain
      · intro rest heq
        exact hat' (List.cons.inj heq).1
      · intro rest heq
        exact hat (List.cons.inj heq).1

end HeadedLine

/-! ## Rule lines -/

/-- A text holds a rule if, without the blanks around it, it is no comment and has an arrow behind
its header. -/
theorem isRuleLine_iff {line : List Char} :
    isRuleLine line = true ↔
      (trim line).head? ≠ none ∧ (trim line).head? ≠ some '#' ∧
        (arrow? (HeadedLine.ofLine (trim line)).rest).isSome = true := by
  rw [isRuleLine, SplitLine.ofLine?]
  split
  · rename_i hnil
    simp [hnil]
  · rename_i hcomment
    simp [hcomment]
  · rename_i hnil hcomment
    cases htrim : trim line with
    | nil => exact absurd htrim hnil
    | cons c cs =>
      have hc : c ≠ '#' := by
        rintro rfl
        exact hcomment cs htrim
      simp [Option.isSome_map, hc]

/-- A comment holds no rule. -/
theorem isRuleLine_comment {line cs : List Char} (h : trim line = '#' :: cs) :
    isRuleLine (trim line) = false := by
  rw [isRuleLine, SplitLine.ofLine?, trim_trim, h]
  rfl

/-- **A rule line is one on one line, too.** -/
theorem isRuleLine_oneLine {line : List Char} (h : isRuleLine line = true) :
    isRuleLine (oneLine line) = true := by
  rw [isRuleLine_iff] at h ⊢
  obtain ⟨hnil, hcomment, harrow⟩ := h
  obtain ⟨more, hrest⟩ := HeadedLine.rest_oneLine (endsDark_trim line)
  obtain ⟨offset, hoffset⟩ := Option.isSome_iff_exists.mp harrow
  rw [trim_oneLine]
  refine ⟨?_, ?_, ?_⟩
  · rw [oneLine, List.head?_map]
    intro hnone
    exact hnil (Option.map_eq_none_iff.mp hnone)
  · rw [ne_eq, head?_oneLine_eq_iff (by decide)]
    exact hcomment
  · have hsame : arrow? (oneLine (HeadedLine.ofLine (trim line)).rest) = some offset :=
      (arrowFrom_oneLine 0 0 _).trans hoffset
    rw [hrest, arrow?, arrowFrom_append hsame]
    rfl

end TreeRules
