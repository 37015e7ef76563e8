import TreeRules.Proofs.Rule.DarkText

/-!
# Headers, read and written

A line has a header or is plain (`ofLine_cases`). A header has a name of at least one character, all
of them name characters, and perhaps a description without quotes (`Header.of_ofLine`). Whatever
name and description are like that can be written in front of a rule, and are read again
(`ofLine_written`).

A line without a header must not get one when it is written differently. Only its first word
matters for that: a header without a description is at most that word, and one with a description
has a quote next to it (`ofLine_eq_plain`).
-/

namespace TreeRules

open Text

namespace HeadedLine

variable {c : Char} {cs rest body name : List Char} {n : String} {h : HeadedLine}

/-! ## What follows the name -/

/-- A text is cut where a stretch of characters of one kind ends. -/
theorem takeWhile_dropWhile_append {p : Char → Bool} {front : List Char}
    (hfront : ∀ c ∈ front, p c = true) (hrest : ∀ c ∈ rest.head?, p c = false) :
    (front ++ rest).takeWhile p = front ∧ (front ++ rest).dropWhile p = rest := by
  rw [List.takeWhile_append_of_pos hfront, List.dropWhile_append_of_pos hfront]
  cases rest with
  | nil => exact ⟨List.append_nil front, rfl⟩
  | cons c rest =>
    have hc : ¬ p c = true := by simp [hrest c rfl]
    rw [List.takeWhile_cons_of_neg hc, List.dropWhile_cons_of_neg hc]
    exact ⟨List.append_nil front, rfl⟩

theorem trimLeft_of_dark (hc : isBlank c = false) (cs : List Char) :
    trimLeft (c :: cs) = c :: cs :=
  List.dropWhile_cons_of_neg (by simp [hc])

/-- Blanks in front of the rule proper are skipped. -/
theorem body?_space (hc : isBlank c = false) (hline : '\n' ∉ c :: cs) :
    body? (' ' :: c :: cs) = some (c :: cs) := by
  have htrim : trimLeft (' ' :: c :: cs) = c :: cs := by
    rw [trimLeft, List.dropWhile_cons_of_pos (by decide), ← trimLeft, trimLeft_of_dark hc]
  rw [body?, htrim]
  exact congrArg some (takeWhile_ne_newline hline)

/-- There is a rule proper wherever anything but blanks follows the colon. -/
theorem exists_body? (hmem : c ∈ cs) (hc : isBlank c = false) : ∃ body, body? cs = some body := by
  rw [body?]
  split
  · rename_i htrim
    have hblank := List.dropWhile_eq_nil_iff.mp htrim c hmem
    rw [hc] at hblank
    cases hblank
  · exact ⟨_, rfl⟩

/-- A quoted text is read up to the first quote behind it. -/
theorem quotedText?_written {description : List Char} (hquote : '"' ∉ description)
    (rest : List Char) :
    quotedText? ('"' :: (description ++ '"' :: rest)) = some (description, rest) := by
  have hall : ∀ d ∈ description, (d != '"') = true := by
    intro d hd
    have hne : d ≠ '"' := fun heq => hquote (heq ▸ hd)
    simpa using hne
  have hend : ∀ d ∈ ('"' :: rest).head?, (d != '"') = false := by
    rintro d ⟨⟩
    decide
  obtain ⟨htake, hdrop⟩ := takeWhile_dropWhile_append hall hend
  rw [quotedText?, htake, hdrop]

/-- There is no quote in a quoted text. -/
theorem quote_notMem_of_quotedText? {description : List Char}
    (hquoted : quotedText? cs = some (description, rest)) : '"' ∉ description := by
  unfold quotedText? at hquoted
  split at hquoted
  · split at hquoted
    · cases hquoted
    · cases hquoted
      intro hmem
      have hne := List.all_eq_true.mp List.all_takeWhile _ hmem
      cases hne
  · cases hquoted

/-- A colon follows the name, or a blank and a quoted description with a colon behind it. -/
theorem afterName?_cases (hafter : afterName? n cs = some h) :
    (∃ rest, cs = ':' :: rest ∧ h.name = some n ∧ h.description = none) ∨
      ∃ c rest description more, cs = c :: rest ∧ isBlank c = true ∧
        quotedText? (trimLeft rest) = some (description, more) ∧
        h.name = some n ∧ h.description = some (String.ofList description) := by
  unfold afterName? at hafter
  split at hafter
  · obtain ⟨body, -, rfl⟩ := Option.map_eq_some_iff.mp hafter
    exact .inl ⟨_, rfl, rfl, rfl⟩
  · split at hafter
    · rename_i hblank
      split at hafter
      · rename_i hquoted
        obtain ⟨body, -, rfl⟩ := Option.map_eq_some_iff.mp hafter
        exact .inr ⟨_, _, _, _, rfl, hblank, hquoted, rfl, rfl⟩
      · cases hafter
    · cases hafter
  · cases hafter

/-! ## Lines with and without a header -/

/-- What is no name character is not in a name. -/
theorem notMem_name (hname : name.all isNamePart = true) (hc : isNamePart c = false) :
    c ∉ name := by
  intro hmem
  have hpart := List.all_eq_true.mp hname c hmem
  rw [hc] at hpart
  cases hpart

/-- Without a header a line is left whole, and with one it begins with a name. -/
theorem ofLine_cases (cs : List Char) :
    ofLine cs = plain cs ∨
      ∃ name rest, cs = '@' :: (name ++ rest) ∧ name ≠ [] ∧ name.all isNamePart = true ∧
        afterName? (String.ofList name) rest = some (ofLine cs) := by
  unfold ofLine
  split
  · rename_i rest
    split
    · exact .inl rfl
    · rename_i hname
      cases hafter : afterName? (String.ofList (rest.takeWhile isNamePart))
        (rest.dropWhile isNamePart) with
      | none => exact .inl rfl
      | some h =>
        refine .inr ⟨_, _, ?_, hname, List.all_takeWhile, hafter⟩
        rw [List.takeWhile_append_dropWhile]
  · exact .inl rfl

/-- The name is all of the name characters behind the mark. -/
theorem ofLine_of_name (hne : name ≠ []) (hname : name.all isNamePart = true)
    (hrest : ∀ c ∈ rest.head?, isNamePart c = false) :
    ofLine ('@' :: (name ++ rest)) =
      (afterName? (String.ofList name) rest).getD (plain ('@' :: (name ++ rest))) := by
  have hall := List.all_eq_true.mp hname
  obtain ⟨htake, hdrop⟩ := takeWhile_dropWhile_append hall hrest
  rw [ofLine, htake, hdrop]
  split
  · exact absurd rfl hne
  · rfl

/-- The line begins with a name and a colon. -/
def OpensHeader (cs : List Char) : Prop :=
  ∃ name rest, cs = '@' :: (name ++ ':' :: rest) ∧ name ≠ [] ∧ name.all isNamePart = true

theorem isNamePart_colon : isNamePart ':' = false := by decide +kernel

/-- If anything but blanks follows the colon, such a line has a header. -/
theorem name_ne_none_of_opensHeader (hcs : OpensHeader cs) (hmem : c ∈ rest)
    (hc : isBlank c = false) : (ofLine (cs ++ rest)).name ≠ none := by
  obtain ⟨name, more, rfl, hne, hname⟩ := hcs
  obtain ⟨body, hbody⟩ := exists_body? (List.mem_append_right more hmem) hc
  have hcolon : ∀ d ∈ (':' :: (more ++ rest)).head?, isNamePart d = false := by
    rintro d ⟨⟩
    exact isNamePart_colon
  have hline := ofLine_of_name hne hname hcolon
  rw [afterName?_colon, hbody] at hline
  rw [List.cons_append, List.append_assoc, List.cons_append, hline]
  exact Option.some_ne_none _

/-! ## What a header says -/

/-- A name and a description that a header can have. -/
structure Header (name description : Option String) : Prop where
  /-- a name has a first character, and all are name characters -/
  name_valid : ∀ n ∈ name, n.toList ≠ [] ∧ n.toList.all isNamePart = true
  /-- only what has a name has a description -/
  named : name = none → description = none
  /-- a description has no quotes, and ends on its line -/
  description_valid : ∀ d ∈ description, '"' ∉ d.toList ∧ '\n' ∉ d.toList

theorem Header.none : Header none none := ⟨by simp, fun _ => rfl, by simp⟩

/-- A line has a header that is a header, and without one it is plain. -/
theorem Header.of_ofLine (hline : '\n' ∉ cs) : Header (ofLine cs).name (ofLine cs).description := by
  rcases ofLine_cases cs with hplain | ⟨name, rest, rfl, hne, hname, hafter⟩
  · rw [hplain]
    exact Header.none
  · have hvalid : (String.ofList name).toList ≠ [] ∧
        (String.ofList name).toList.all isNamePart = true := by
      rw [String.toList_ofList]
      exact ⟨hne, hname⟩
    rcases afterName?_cases hafter with
      ⟨rest, rfl, hn, hd⟩ | ⟨c, rest, description, more, rfl, -, hquoted, hn, hd⟩
    · rw [hn, hd]
      exact ⟨by rintro _ ⟨⟩; exact hvalid, fun _ => rfl, by simp⟩
    · rw [hn, hd]
      refine ⟨by rintro _ ⟨⟩; exact hvalid, fun hnone => (Option.some_ne_none _ hnone).elim, ?_⟩
      rintro _ ⟨⟩
      rw [String.toList_ofList]
      refine ⟨quote_notMem_of_quotedText? hquoted, fun hmem => hline ?_⟩
      have hrest : '\n' ∈ rest := by
        refine (List.dropWhile_sublist isBlank).mem ?_
        rw [← trimLeft, eq_of_quotedText? hquoted]
        simp [hmem]
      simp [hrest]

theorem rest_of_name_eq_none (hname : (ofLine cs).name = none) : (ofLine cs).rest = cs := by
  rcases ofLine_cases cs with hplain | ⟨name, rest, -, -, -, hafter⟩
  · rw [hplain, plain]
  · rcases afterName?_cases hafter with ⟨_, _, hn, -⟩ | ⟨_, _, _, _, _, _, _, hn, -⟩
    · rw [hname] at hn
      cases hn
    · rw [hname] at hn
      cases hn

/-! ## Writing a header -/

/-- The characters of a header with this name. -/
def written (n : String) (description : Option String) : List Char :=
  let quoted := description.elim [] fun d => ' ' :: '"' :: (d.toList ++ ['"'])
  '@' :: (n.toList ++ quoted ++ [':', ' '])

/-- **A header that is written is read.** -/
theorem ofLine_written {description : Option String} (hheader : Header (some n) description)
    (hc : isBlank c = false) (hline : '\n' ∉ c :: cs) :
    ofLine (written n description ++ c :: cs) = ⟨some n, description, c :: cs⟩ := by
  obtain ⟨hne, hname⟩ := hheader.name_valid n rfl
  have hbody := body?_space hc hline
  cases description with
  | none =>
    have hcolon : ∀ d ∈ (':' :: ' ' :: c :: cs).head?, isNamePart d = false := by
      rintro d ⟨⟩
      exact isNamePart_colon
    have hread := ofLine_of_name hne hname hcolon
    rw [afterName?_colon, hbody, String.ofList_toList] at hread
    simpa [written] using hread
  | some d =>
    obtain ⟨hquote, -⟩ := hheader.description_valid d rfl
    have hspace : ∀ d' ∈ (' ' :: '"' :: (d.toList ++ '"' :: ':' :: ' ' :: c :: cs)).head?,
        isNamePart d' = false := by
      rintro d' ⟨⟩
      exact isNamePart_space
    have hread := ofLine_of_name hne hname hspace
    have hquoted : quotedText? (trimLeft ('"' :: (d.toList ++ '"' :: ':' :: ' ' :: c :: cs))) =
        some (d.toList, ':' :: ' ' :: c :: cs) := by
      rw [trimLeft_of_dark (by decide), quotedText?_written hquote]
    rw [afterName?_description _ (by decide) hquoted, hbody, String.ofList_toList,
      String.ofList_toList] at hread
    simpa [written] using hread

/-! ## Writing no header -/

/-- Where two texts both go on behind a first stretch, and neither stretch holds what the other one
ends at, the stretches are the same. -/
theorem append_cons_inj {α : Type} {xs ys xs' ys' : List α} {x y : α}
    (h : xs ++ x :: xs' = ys ++ y :: ys') (hx : x ∉ ys) (hy : y ∉ xs) : xs = ys ∧ xs' = ys' := by
  rcases List.append_eq_append_iff.mp h with ⟨zs, rfl, hzs⟩ | ⟨zs, rfl, hzs⟩
  · cases zs with
    | nil => exact ⟨(List.append_nil xs).symm, (List.cons.inj hzs).2⟩
    | cons z zs =>
      obtain rfl : x = z := (List.cons.inj hzs).1
      exact absurd (by simp) hx
  · cases zs with
    | nil => exact ⟨List.append_nil ys, (List.cons.inj hzs).2.symm⟩
    | cons z zs =>
      obtain rfl : y = z := (List.cons.inj hzs).1
      exact absurd (by simp) hy

/-- **A word that opens no header opens none in front of an arrow**, either. -/
theorem ofLine_eq_plain {word : List Char} (hword : ∀ d ∈ word, isBlank d = false)
    (hopens : ¬ OpensHeader word) (more : List Char) :
    ofLine (word ++ ' ' :: '=' :: more) = plain (word ++ ' ' :: '=' :: more) := by
  rcases ofLine_cases (word ++ ' ' :: '=' :: more) with
    hplain | ⟨name, rest, hcs, hne, hname, hafter⟩
  · exact hplain
  · exfalso
    have hspace : ' ' ∉ name := notMem_name hname isNamePart_space
    cases word with
    | nil => cases hcs
    | cons d word =>
      rw [List.cons_append, List.cons.injEq] at hcs
      obtain ⟨rfl, hcs⟩ := hcs
      rcases afterName?_cases hafter with
        ⟨rest, rfl, -⟩ | ⟨c, rest, description, after, rfl, hblank, hquoted, -⟩
      · -- the colon stands in the word, which then opens a header
        rcases List.append_eq_append_iff.mp hcs with ⟨zs, rfl, hzs⟩ | ⟨zs, rfl, hzs⟩
        · cases zs with
          | nil => cases hzs
          | cons z zs =>
            obtain rfl : ' ' = z := (List.cons.inj hzs).1
            exact hspace (by simp)
        · cases zs with
          | nil => cases hzs
          | cons z zs =>
            obtain rfl : ':' = z := (List.cons.inj hzs).1
            exact hopens ⟨name, zs, rfl, hne, hname⟩
      · -- the blank is the one behind the word, and an arrow is no quote
        have hout : c ∉ word := by
          intro hmem
          have hdark := hword c (List.mem_cons_of_mem '@' hmem)
          rw [hblank] at hdark
          cases hdark
        obtain ⟨-, rfl⟩ := append_cons_inj hcs.symm hout hspace
        rw [trimLeft_of_dark (by decide)] at hquoted
        have heq := eq_of_quotedText? hquoted
        exact absurd (List.cons.inj heq).1 (by decide)

end HeadedLine

end TreeRules
