import TreeRules.Proofs.Expr.Grammar
import TreeRules.Proofs.Rule.OneLine

/-!
# What a rule tells of its line

A rule is its line, blanks apart: name, description, pattern and template give back all other
characters of the line, in their order (`Rule.darkText`). For a tree these are the characters of its
tokens (`Expr.dark_of_parseChars`), and the header and the arrow are always written alike.

A rule is read from a single line. So a text on several lines gives a rule that tells less than the
text does, and never the rule that the same text gives on one line (`Rule.ofText_ne_of_newline`).
-/

namespace TreeRules

open Text

variable {depth : Int} {pos offset : Nat} {cs line text : List Char} {r r' : Rule}

/-! ## Trees -/

/-- Only blanks are dropped from a text. -/
theorem flatMap_chars_tokens (cs : List Char) : (tokens cs).flatMap Lexeme.chars = dark cs := by
  fun_induction tokens cs with
  | case1 => rfl
  | case2 cs ih => rw [List.flatMap_cons, ih, dark_cons (by decide)]; rfl
  | case3 cs _ ih => rw [List.flatMap_cons, ih, dark_cons (by decide)]; rfl
  | case4 c cs _ _ hblank ih => rw [ih, dark_blank hblank]
  | case5 c cs _ _ hblank ih =>
    have hword : ∀ d ∈ cs.takeWhile isWordPart, isBlank d = false := by
      intro d hd
      exact (isWordPart_iff.mp (List.all_eq_true.mp List.all_takeWhile d hd)).1
    have hrest := dark_append (cs.takeWhile isWordPart) (cs.dropWhile isWordPart)
    rw [List.takeWhile_append_dropWhile, dark_of_forall hword] at hrest
    rw [List.flatMap_cons, ih, dark_cons (by simpa using hblank), hrest]
    rfl

namespace Expr

/-- The characters of the text of a tree that are not blanks. -/
def darkText (e : Expr) : List Char := e.spelling.flatMap Lexeme.chars

theorem dark_of_parseChars {e : Expr} (h : parseChars cs = .ok e) : dark cs = e.darkText := by
  rw [← flatMap_chars_tokens, ← lexed_eq_tokens, lexed_of_parseChars h, darkText]

end Expr

/-! ## Headers -/

namespace HeadedLine

/-- The characters of a description with its quotes that are not blanks. -/
def darkDescription (description : Option String) : List Char :=
  description.elim [] fun d => '"' :: (dark d.toList ++ ['"'])

/-- The characters of a header that are not blanks. -/
def darkHeader (name description : Option String) : List Char :=
  name.elim [] fun n => '@' :: (dark n.toList ++ (darkDescription description ++ [':']))

/-- On a single line the rule proper is all that follows the colon. -/
theorem dark_of_body? {body : List Char} (h : body? cs = some body) (hline : '\n' ∉ cs) :
    dark body = dark cs := by
  rw [body?] at h
  split at h
  · rename_i htrim
    obtain ⟨c, hc, rfl⟩ := Option.map_eq_some_iff.mp h
    have hblank := List.dropWhile_eq_nil_iff.mp htrim c
      (List.mem_reverse.mp (List.mem_of_find?_eq_some hc))
    rw [← dark_trimLeft cs, htrim, dark_blank hblank]
  · have htrim : '\n' ∉ trimLeft cs := fun hmem => hline ((List.dropWhile_sublist _).mem hmem)
    rw [takeWhile_ne_newline htrim] at h
    rw [← Option.some.inj h, dark_trimLeft]

theorem dark_of_afterName? {name : String} {h : HeadedLine} (hafter : afterName? name cs = some h)
    (hline : '\n' ∉ cs) :
    h.name = some name ∧ dark cs = darkDescription h.description ++ ':' :: dark h.rest := by
  unfold afterName? at hafter
  split at hafter
  · rename_i rest
    obtain ⟨body, hbody, rfl⟩ := Option.map_eq_some_iff.mp hafter
    rw [List.mem_cons, not_or] at hline
    rw [dark_cons (by decide), ← dark_of_body? hbody hline.2]
    exact ⟨rfl, rfl⟩
  · rename_i c rest _
    split at hafter
    · rename_i hblank
      split at hafter
      · rename_i description rest' hquoted
        obtain ⟨body, hbody, rfl⟩ := Option.map_eq_some_iff.mp hafter
        have htext := eq_of_quotedText? hquoted
        have hrest : '\n' ∉ rest' := by
          intro hmem
          refine hline (List.mem_cons_of_mem _ ((List.dropWhile_sublist isBlank).mem ?_))
          rw [← trimLeft, htext]
          simp [hmem]
        refine ⟨rfl, ?_⟩
        rw [dark_blank hblank, ← dark_trimLeft, htext, dark_cons (by decide), dark_append,
          dark_cons (by decide), dark_cons (by decide), ← dark_of_body? hbody hrest]
        simp [darkDescription]
      · cases hafter
    · cases hafter
  · cases hafter

/-- On a single line nothing but the header is taken off. -/
theorem dark_eq_darkHeader_append (hline : '\n' ∉ cs) :
    dark cs = darkHeader (ofLine cs).name (ofLine cs).description ++ dark (ofLine cs).rest := by
  unfold ofLine
  split
  · rename_i rest
    split
    · rfl
    · cases hafter : afterName? (String.ofList (rest.takeWhile isNamePart))
        (rest.dropWhile isNamePart) with
      | none => rfl
      | some h =>
        have htail : '\n' ∉ rest.dropWhile isNamePart := by
          intro hmem
          exact hline (List.mem_cons_of_mem _ ((List.dropWhile_sublist _).mem hmem))
        obtain ⟨hname, hdark⟩ := dark_of_afterName? hafter htail
        have hsplit := congrArg dark (List.takeWhile_append_dropWhile (p := isNamePart) (l := rest))
        rw [dark_append, hdark] at hsplit
        rw [dark_cons (by decide), ← hsplit, Option.getD_some, hname]
        simp [darkHeader]
  · rfl

end HeadedLine

/-! ## Lines -/

/-- The offset of an arrow is where an arrow stands. -/
theorem eq_of_arrowFrom (h : arrowFrom depth pos cs = some offset) :
    ∃ front back, cs = front ++ '=' :: '>' :: back ∧ offset = pos + front.length := by
  induction cs generalizing depth pos with
  | nil => cases h
  | cons c cs ih =>
    have hlater : ∀ {depth : Int}, arrowFrom depth (pos + 1) cs = some offset →
        ∃ front back, c :: cs = front ++ '=' :: '>' :: back ∧ offset = pos + front.length := by
      intro depth h
      obtain ⟨front, back, rfl, rfl⟩ := ih h
      exact ⟨c :: front, back, rfl, by rw [List.length_cons]; omega⟩
    by_cases hopen : c = '('
    · rw [hopen] at h ⊢
      exact hopen ▸ hlater h
    · by_cases hclose : c = ')'
      · rw [hclose] at h ⊢
        exact hclose ▸ hlater h
      · rw [arrowFrom_cons_of_ne_paren hopen hclose] at h
        split at h
        · rename_i harrow
          obtain ⟨-, rfl, hhead⟩ := harrow
          obtain ⟨back, rfl⟩ := List.head?_eq_some_iff.mp hhead
          exact ⟨[], back, rfl, (Option.some.inj h).symm⟩
        · exact hlater h

/-- Cut at its arrow a line falls into what stands in front of it, the arrow, and what follows. -/
theorem SplitLine.dark_of_ofLine? {s : SplitLine} (h : ofLine? line = some s)
    (hline : '\n' ∉ line) : dark line = HeadedLine.darkHeader s.name s.description ++
      (dark s.pattern ++ '=' :: '>' :: dark s.template) := by
  unfold ofLine? at h
  split at h
  · cases h
  · cases h
  · obtain ⟨offset, harrow, rfl⟩ := Option.map_eq_some_iff.mp h
    obtain ⟨front, back, hrest, rfl⟩ := eq_of_arrowFrom harrow
    have htrim : '\n' ∉ trim line := fun hmem => hline (mem_of_mem_trim hmem)
    have hhead := HeadedLine.dark_eq_darkHeader_append htrim
    rw [dark_trim, hrest, dark_append, dark_cons (by decide), dark_cons (by decide)] at hhead
    rw [hhead]
    simp [hrest]

namespace Rule

/-- The characters of a rule's line that are not blanks. -/
def darkText (r : Rule) : List Char :=
  HeadedLine.darkHeader r.name r.description ++
    (r.pattern.darkText ++ '=' :: '>' :: r.template.darkText)

/-- A rule is read from the two parts of its line. -/
theorem exists_split_of_ofLine (h : ofLine line = .ok (some r)) :
    ∃ s pattern template, SplitLine.ofLine? line = some s ∧
      Expr.parseChars s.pattern = .ok pattern ∧ Expr.parseChars s.template = .ok template ∧
      r = { pattern, template, name := s.name, description := s.description } := by
  rw [ofLine] at h
  split at h
  · cases h
  · rename_i split hsplit
    cases hpattern : Expr.parseChars split.pattern with
    | error e =>
      rw [hpattern] at h
      cases h
    | ok pattern =>
      cases htemplate : Expr.parseChars split.template with
      | error e =>
        rw [hpattern, htemplate] at h
        cases h
      | ok template =>
        rw [hpattern, htemplate] at h
        cases h
        exact ⟨split, pattern, template, hsplit, hpattern, htemplate, rfl⟩

/-- **A rule tells all of its line**, blanks apart. -/
theorem dark_of_ofLine (h : ofLine line = .ok (some r)) (hline : '\n' ∉ line) :
    dark line = r.darkText := by
  obtain ⟨s, pattern, template, hs, hpattern, htemplate, rfl⟩ := exists_split_of_ofLine h
  rw [SplitLine.dark_of_ofLine? hs hline, Expr.dark_of_parseChars hpattern,
    Expr.dark_of_parseChars htemplate, darkText]

/-- The first rule on several lines is the rule of one of them. -/
theorem exists_mem_of_ofLines {lines : List (List Char)} (h : ofLines lines = .ok (some r)) :
    ∃ line ∈ lines, ofLine line = .ok (some r) := by
  induction lines with
  | nil => cases h
  | cons line lines ih =>
    rw [ofLines] at h
    split at h
    · obtain ⟨line', hmem, hline⟩ := ih h
      exact ⟨line', List.mem_cons_of_mem _ hmem, hline⟩
    · exact ⟨line, List.mem_cons_self, h⟩

/-- The rule of a text is the rule of one of its lines. -/
theorem exists_mem_of_ofText {text : String} (h : ofText text = .ok r) :
    ∃ line ∈ linesAt isNewline text.toList, ofLine line = .ok (some r) := by
  rw [ofText] at h
  split at h
  · rename_i rule hlines
    cases h
    exact exists_mem_of_ofLines hlines
  · cases h
  · cases h

/-- The rule of a text is told by one of its lines. -/
theorem exists_line_of_ofText (h : ofText (String.ofList text) = .ok r) :
    ∃ line ∈ linesAt isNewline text, dark line = r.darkText := by
  obtain ⟨line, hmem, hline⟩ := exists_mem_of_ofText h
  rw [String.toList_ofList] at hmem
  refine ⟨line, hmem, dark_of_ofLine hline fun hnewline => ?_⟩
  cases not_isEnd_of_mem_linesAt hmem hnewline

/-- The rule of a text on one line is told by all of the text. -/
theorem dark_of_ofText_oneLine (h : ofText (String.ofList (oneLine text)) = .ok r) :
    dark text = r.darkText := by
  obtain ⟨line, hmem, hdark⟩ := exists_line_of_ofText h
  have hne : oneLine text ≠ [] := by
    intro hnil
    rw [hnil] at hmem
    cases hmem
  rw [linesAt_newline_of_notMem hne (newline_notMem_oneLine text)] at hmem
  rw [← dark_oneLine, ← List.mem_singleton.mp hmem, hdark]

/-- **A text on several lines gives another rule**, if it gives one, than the same text on one. -/
theorem ofText_ne_of_newline (hnewline : '\n' ∈ trim text)
    (h : ofText (String.ofList (oneLine (trim text))) = .ok r) :
    ofText (String.ofList (trim text)) ≠ .ok r := by
  intro h'
  obtain ⟨line, hmem, hdark⟩ := exists_line_of_ofText h'
  have hlt := length_dark_lt_of_mem_linesAt hnewline hmem
  rw [hdark, ← dark_of_ofText_oneLine h, dark_trim] at hlt
  exact Nat.lt_irrefl _ hlt

end Rule

end TreeRules
