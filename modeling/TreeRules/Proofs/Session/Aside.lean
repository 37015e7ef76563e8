import TreeRules.Proofs.Rule.Header
import TreeRules.Proofs.Rule.Parens
import TreeRules.Proofs.Session.OneLine

/-!
# What a line says aside

Not everything on a line is a tree or a part of one. A comment is not, a command is not unless it
sets a rule, and of a rule its name and its description are not. Of these the comment, the command
and the description may hold any parentheses: `Request.aside` is this part of a line.

The parentheses of the trees on a line that can be executed are balanced, and a name has none. So
such a line opens as many lists as it says aside, and no others (`openParens_eq_aside`).
-/

namespace TreeRules

open Text

variable {c : Char} {cs line : List Char} {r : Rule} {s s' : Session} {answer : Answer}

/-! ## Rules -/

namespace HeadedLine

/-- No character of a name is a parenthesis. -/
theorem openParens_name {n : String} (hn : n.toList.all isNamePart = true) :
    openParens n.toList = 0 := by
  have hopen : '(' ∉ n.toList := notMem_name hn (by decide +kernel)
  have hclose : ')' ∉ n.toList := notMem_name hn (by decide +kernel)
  refine openParens_of_forall fun c hc => ⟨?_, ?_⟩
  · rintro rfl
    exact hopen hc
  · rintro rfl
    exact hclose hc

/-- A header opens what its description opens. -/
theorem openParens_darkHeader {name description : Option String} (h : Header name description) :
    openParens (darkHeader name description) =
      openParens (description.elim [] String.toList) := by
  cases name with
  | none =>
    rw [h.named rfl]
    rfl
  | some n =>
    obtain ⟨-, hn⟩ := h.name_valid n rfl
    have hname : openParens (dark n.toList) = 0 := by rw [openParens_dark, openParens_name hn]
    have hmark : ∀ ds, openParens ('@' :: ds) = openParens ds :=
      openParens_cons_of_ne_paren (by decide) (by decide)
    have hquote : ∀ ds, openParens ('"' :: ds) = openParens ds :=
      openParens_cons_of_ne_paren (by decide) (by decide)
    have hcolon : openParens [':'] = 0 := rfl
    cases description with
    | none => simp [darkHeader, darkDescription, openParens_append, hname, hmark, hcolon]
    | some d =>
      simp [darkHeader, darkDescription, openParens_append, openParens_dark, hname, hmark, hquote,
        hcolon]

end HeadedLine

/-- A rule line opens what the description of its rule opens. -/
theorem Rule.openParens_of_ofLine (h : ofLine line = .ok (some r)) (hline : '\n' ∉ line) :
    openParens line =
      openParens ((HeadedLine.ofLine (trim line)).description.elim [] String.toList) := by
  have hdark := dark_of_ofLine h hline
  obtain ⟨split, pattern, template, hsplit, -, -, rfl⟩ := exists_split_of_ofLine h
  obtain ⟨-, -, -, hname, hdescription⟩ := SplitLine.exists_of_ofLine? hsplit
  have hheader : HeadedLine.Header (HeadedLine.ofLine (trim line)).name
      (HeadedLine.ofLine (trim line)).description :=
    HeadedLine.Header.of_ofLine fun hmem => hline (mem_of_mem_trim hmem)
  have harrow : ∀ ds, openParens ('=' :: '>' :: ds) = openParens ds := fun ds => by
    rw [openParens_cons_of_ne_paren (by decide) (by decide),
      openParens_cons_of_ne_paren (by decide) (by decide)]
  rw [← openParens_dark, hdark, darkText, openParens_append, openParens_append, harrow,
    Expr.openParens_darkText, Expr.openParens_darkText, hname, hdescription,
    HeadedLine.openParens_darkHeader hheader]
  simp

/-- A rule on one line is the rule of that line. -/
theorem Rule.ofLine_of_ofText (h : ofText (String.ofList line) = .ok r) (hline : '\n' ∉ line) :
    ofLine line = .ok (some r) := by
  obtain ⟨line', hmem, hrule⟩ := exists_mem_of_ofText h
  rw [String.toList_ofList] at hmem
  have hne : line ≠ [] := by
    rintro rfl
    cases hmem
  rw [linesAt_newline_of_notMem hne hline, List.mem_singleton] at hmem
  rw [← hmem, hrule]

/-! ## Requests -/

namespace Request

/-- The part of a line that is no tree and no part of one: all of a comment, all of a command that
sets no rule, and the description of a rule. -/
def aside (line : List Char) : List Char :=
  if asksForRule line then (HeadedLine.ofLine (ruleText line)).description.elim [] String.toList
  else if (trim line).head? = some '#' ∨ (trim line).head? = some ':' then trim line
  else []

/-- A line that asks for a rule sets one, if it can be executed at all. -/
theorem exists_rule_of_asksForRule {request : Request} (h : ofLine line = .ok request)
    (hrule : asksForRule line = true) : ∃ r, request = .command (.rule r) := by
  cases read_of_ofLine h with
  | blank htrim =>
    rw [asksForRule_text (by simp [htrim]), htrim] at hrule
    cases hrule
  | comment htrim =>
    rw [asksForRule_text (by simp [htrim]), isRuleLine_comment htrim] at hrule
    cases hrule
  | command htrim hword hnamed =>
    rw [asksForRule_command htrim, hword, Option.elim_some, beq_iff_eq] at hrule
    obtain ⟨r, rfl⟩ := hnamed.exists_rule hrule
    exact ⟨r, rfl⟩
  | rule => exact ⟨_, rfl⟩
  | trees htrim _ hcommand htrees =>
    rw [asksForRule_text (by simpa [htrim] using hcommand), htrim, htrees] at hrule
    cases hrule

/-- Between the first word and what follows it there are only blanks. -/
theorem openParens_of_firstWord? {w : List Char × List Char} (h : firstWord? cs = some w) :
    openParens cs = openParens w.1 + openParens w.2 := by
  rw [firstWord?] at h
  split at h
  · cases h
  · cases h
    rw [openParens_trimLeft, ← openParens_append, List.takeWhile_append_dropWhile,
      openParens_trimLeft]

/-- A parenthesis stays one in lower case. -/
theorem openParens_of_lower_eq {word keyword : List Char} (h : lower word = keyword)
    (hopen : '(' ∉ keyword) (hclose : ')' ∉ keyword) : openParens word = 0 := by
  refine openParens_of_forall fun c hc => ⟨?_, ?_⟩
  · rintro rfl
    exact hopen (h ▸ mem_lowerAfter hc (by decide) (by decide) (by decide))
  · rintro rfl
    exact hclose (h ▸ mem_lowerAfter hc (by decide) (by decide) (by decide))

/-- There is no parenthesis in front of the part that a rule is read from. -/
theorem openParens_ruleText (hrule : asksForRule line = true) :
    openParens (ruleText line) = openParens line := by
  rw [← openParens_trim line]
  by_cases hcommand : (trim line).head? = some ':'
  · obtain ⟨cs, htrim⟩ := List.head?_eq_some_iff.mp hcommand
    rw [asksForRule_command htrim] at hrule
    rw [ruleText_command htrim, htrim, openParens_cons_of_ne_paren (by decide) (by decide)]
    cases hword : firstWord? cs with
    | none => simp [hword] at hrule
    | some w =>
      simp only [hword, Option.elim_some, beq_iff_eq] at hrule
      have hlower : lower w.1 = "rule".toList := by rw [← hrule, String.toList_ofList]
      rw [openParens_of_firstWord? hword,
        openParens_of_lower_eq hlower (by decide) (by decide), Option.elim_some, openParens_trim,
        Int.zero_add]
  · rw [ruleText_text hcommand]

/-- The part that a rule is read from is a part of the line. -/
theorem mem_of_mem_ruleText (hc : c ∈ ruleText line) : c ∈ line := by
  by_cases hcommand : (trim line).head? = some ':'
  · obtain ⟨cs, htrim⟩ := List.head?_eq_some_iff.mp hcommand
    have hmem : ∀ d ∈ cs, d ∈ line := by
      intro d hd
      exact mem_of_mem_trim (by rw [htrim]; exact List.mem_cons_of_mem ':' hd)
    rw [ruleText_command htrim, firstWord?] at hc
    split at hc
    · cases hc
    · refine hmem c ((List.dropWhile_sublist isBlank).mem ?_)
      refine (List.dropWhile_sublist (!isBlank ·)).mem ?_
      exact (List.dropWhile_sublist isBlank).mem (mem_of_mem_trim hc)
  · rw [ruleText_text hcommand] at hc
    exact mem_of_mem_trim hc

/-- A line that sets a rule opens what it says aside. -/
theorem openParens_of_ofLine_rule (h : ofLine line = .ok (.command (.rule r)))
    (hrule : asksForRule line = true) (hline : '\n' ∉ line) :
    openParens line = openParens (aside line) := by
  obtain ⟨cs, hcs⟩ := exists_ruleText_eq_trim line
  have htrim : trim (ruleText line) = ruleText line := by rw [hcs, trim_trim]
  have hnewline : '\n' ∉ ruleText line := fun hmem => hline (mem_of_mem_ruleText hmem)
  have hone := Rule.ofLine_of_ofText (ofText_of_ofLine h) hnewline
  have hopens := Rule.openParens_of_ofLine hone hnewline
  rw [htrim] at hopens
  rw [← openParens_ruleText hrule, hopens, aside, if_pos hrule]

end Request

namespace Session

/-- What a session has an answer to can be read. -/
theorem exists_request_of_execute (h : s.execute line = (s', .ok answer)) :
    ∃ request, Request.ofLine line = .ok request := by
  cases hread : Request.ofLine line with
  | error e => simp [execute, hread] at h
  | ok request => exact ⟨request, rfl⟩

/-- Trees that a session has an answer to can be read. -/
theorem exists_trees_of_execute {text : List Char} (h : s.execute line = (s', .ok answer))
    (htext : Request.ofLine line = .ok (.trees text)) :
    ∃ es, Expr.parseAllChars text = .ok es := by
  cases hread : Expr.parseAllChars text with
  | ok es => exact ⟨es, rfl⟩
  | error e =>
    cases hrule : s.rule with
    | none => simp [execute, htext, simplify, hrule, Except.map] at h
    | some r => simp [execute, htext, simplify, hrule, simplifyWith, hread, Except.map] at h

/-- **A line that can be executed opens what it says aside**, and nothing else. -/
theorem openParens_eq_aside (h : s.execute line = (s', .ok answer)) (hline : '\n' ∉ line) :
    openParens line = openParens (Request.aside line) := by
  cases hrule : Request.asksForRule line with
  | true =>
    obtain ⟨request, hread⟩ := exists_request_of_execute h
    obtain ⟨r, rfl⟩ := Request.exists_rule_of_asksForRule hread hrule
    exact Request.openParens_of_ofLine_rule hread hrule hline
  | false =>
    rw [Request.aside, hrule, if_neg Bool.false_ne_true]
    split
    · rw [openParens_trim]
    · rename_i hmark
      rw [not_or] at hmark
      rw [← openParens_trim, openParens_nil]
      cases htrim : trim line with
      | nil => rfl
      | cons c cs =>
        rw [Request.asksForRule_text hmark.2] at hrule
        rw [htrim] at hmark hrule
        have hread : Request.ofLine line = .ok (.trees (c :: cs)) := by
          rw [Request.ofLine_text htrim (by simpa using hmark.1) (by simpa using hmark.2), hrule]
          rfl
        obtain ⟨es, hes⟩ := exists_trees_of_execute h hread
        exact Expr.openParens_of_parseAllChars hes

end Session

end TreeRules
