import TreeRules.Prompt
import TreeRules.Proofs.Rule.DarkText
import TreeRules.Proofs.Session.Lines

/-!
# Requests put on one line

A text typed over several lines reaches the session with its line feeds. Everything a request is
read from takes a line feed for the blank that it is, with one exception: a rule is read from a
single line. So the answer to a request, and what it leaves of the session, is the same when the
request is put on one line, unless it sets a rule whose text has a line feed (`process_oneLine`).

Such a rule is never set. It may be that none of the lines is a rule, that the first one that seems
to be is not complete, or that another rule stands on it alone; the rule that all the lines together
are tells more than any of them (`Rule.ofText_ne_of_newline`).
-/

namespace TreeRules

open Text

variable {c : Char} {cs line : List Char} {name : String} {r : Rule} {s : Session}

/-! ## Trees -/

theorem lexemesFrom_oneLine (pos : Nat) (cs : List Char) :
    lexemesFrom pos (oneLine cs) = lexemesFrom pos cs := by
  induction cs generalizing pos with
  | nil => rfl
  | cons c cs ih =>
    have hopen : spaced c = '(' ↔ c = '(' := spaced_eq_iff (by decide)
    have hclose : spaced c = ')' ↔ c = ')' := spaced_eq_iff (by decide)
    cases hc : isBlank c with
    | true => simp only [oneLine_cons, lexemesFrom, ih, hopen, hclose, isBlank_spaced, hc, if_true]
    | false => rw [oneLine_cons_of_dark hc, lexemesFrom, lexemesFrom, ih]

/-- Trees stand at the same places, and so do the errors in them. -/
theorem Expr.parseAllChars_oneLine (cs : List Char) :
    parseAllChars (oneLine cs) = parseAllChars cs := by
  rw [parseAllChars, parseAllChars, lexemes, lexemes, lexemesFrom_oneLine, length_oneLine]

theorem Session.simplify_oneLine (s : Session) (text : List Char) :
    s.simplify (oneLine text) = s.simplify text := by
  rw [simplify, simplify]
  cases s.rule with
  | none => rfl
  | some r => simp only [simplifyWith, Expr.parseAllChars_oneLine]

/-! ## Commands -/

/-- A keyword is recognised on one line if it was before. -/
theorem lower_oneLine_eq_ofList {word : String} (hnewline : '\n' ∉ word.toList)
    (hspace : ' ' ∉ word.toList) (cs : List Char) :
    String.ofList (lower (oneLine cs)) = word ↔ String.ofList (lower cs) = word := by
  have hword : ∀ ds, String.ofList ds = word ↔ ds = word.toList := by
    intro ds
    rw [← String.toList_inj, String.toList_ofList]
  rw [hword, hword, lower_oneLine_eq_iff hnewline hspace]

theorem Strategy.ofName?_oneLine (cs : List Char) :
    ofName? (String.ofList (lower (oneLine cs))) = ofName? (String.ofList (lower cs)) := by
  have hname : ∀ strategy : Strategy, (strategy.name == String.ofList (lower (oneLine cs))) =
      (strategy.name == String.ofList (lower cs)) := by
    intro strategy
    rw [Bool.eq_iff_iff, beq_iff_eq, beq_iff_eq, eq_comm, eq_comm (b := String.ofList (lower cs))]
    apply lower_oneLine_eq_ofList
    · cases strategy <;> decide +kernel
    · cases strategy <;> decide +kernel
  rw [ofName?, ofName?]
  simp only [hname]

theorem Switch.ofChars_oneLine (cs : List Char) : ofChars (oneLine cs) = ofChars cs := by
  have hmem : ∀ words : List String, (∀ word ∈ words, '\n' ∉ word.toList ∧ ' ' ∉ word.toList) →
      words.contains (String.ofList (lower (oneLine cs))) =
        words.contains (String.ofList (lower cs)) := by
    intro words hwords
    rw [Bool.eq_iff_iff, List.contains_iff_mem, List.contains_iff_mem]
    constructor
    · intro hin
      obtain ⟨hnewline, hspace⟩ := hwords _ hin
      rw [(lower_oneLine_eq_ofList hnewline hspace cs).mp rfl]
      exact hin
    · intro hin
      obtain ⟨hnewline, hspace⟩ := hwords _ hin
      rw [(lower_oneLine_eq_ofList hnewline hspace cs).mpr rfl]
      exact hin
  rw [ofChars, ofChars, hmem _ (by decide +kernel), hmem _ (by decide +kernel)]

namespace Command

theorem readLimit_oneLine (arg : List Char) : readLimit (oneLine arg) = readLimit arg := by
  rw [readLimit, readLimit, readInt?_oneLine]

/-- Only the command that sets a rule looks at the lines of its argument. -/
theorem ofName_oneLine (hname : name ≠ "rule") (arg : List Char) :
    ofName name (oneLine arg) = ofName name arg := by
  unfold ofName
  split
  · rfl
  · rfl
  · rfl
  · rfl
  · exact absurd rfl hname
  · rfl
  · rw [Strategy.ofName?_oneLine]
  · rw [readLimit_oneLine]
  · rw [Switch.ofChars_oneLine]
  · rw [Switch.ofChars_oneLine]
  · rfl

end Command

/-! ## Requests -/

namespace Request

/-- The part of a line that a rule is read from: what follows the name of a command, or else the
whole line. -/
def ruleText (line : List Char) : List Char :=
  match trim line with
  | ':' :: rest => (firstWord? rest).elim [] fun w => trim w.2
  | cs => cs

/-- Is the line to set a rule? -/
def asksForRule (line : List Char) : Bool :=
  match trim line with
  | ':' :: rest => (firstWord? rest).elim false fun w => String.ofList (lower w.1) == "rule"
  | cs => isRuleLine cs

/-- The request with its trees on one line. -/
def onOneLine : Request → Request
  | .trees text => .trees (oneLine text)
  | request => request

theorem ruleText_command (h : trim line = ':' :: cs) :
    ruleText line = (firstWord? cs).elim [] fun w => trim w.2 := by
  rw [ruleText, h]
  rfl

theorem ruleText_text (h : (trim line).head? ≠ some ':') : ruleText line = trim line := by
  unfold ruleText
  split
  · rename_i heq
    rw [heq] at h
    exact absurd rfl h
  · rfl

theorem asksForRule_command (h : trim line = ':' :: cs) :
    asksForRule line = (firstWord? cs).elim false fun w => String.ofList (lower w.1) == "rule" := by
  rw [asksForRule, h]
  rfl

theorem asksForRule_text (h : (trim line).head? ≠ some ':') :
    asksForRule line = isRuleLine (trim line) := by
  unfold asksForRule
  split
  · rename_i heq
    rw [heq] at h
    exact absurd rfl h
  · rfl

/-- Where nothing but the trees is put on one line, the request stays the same. -/
theorem onOneLine_command (result : Except Failure Command) :
    (result.map command).map onOneLine = result.map command := by
  cases result <;> rfl

theorem ofLine_command_oneLine (htrim : trim line = ':' :: cs)
    (h : asksForRule (oneLine line) = false ∨ '\n' ∉ ruleText line) :
    ofLine (oneLine line) = (ofLine line).map onOneLine := by
  have htrim' := trim_oneLine_of_trim_eq_cons htrim
  rw [asksForRule_command htrim', ruleText_command htrim, firstWord?_oneLine] at h
  rw [ofLine_command htrim', ofLine_command htrim, onOneLine_command, Command.ofLine,
    Command.ofLine, List.drop_one, List.drop_one, List.tail_cons, List.tail_cons,
    firstWord?_oneLine]
  cases hword : firstWord? cs with
  | none => rfl
  | some w =>
    simp only [hword, Option.map_some, Option.elim_some, beq_eq_false_iff_ne] at h
    simp only [Option.map_some, trim_oneLine]
    rcases h with hname | hline
    · rw [Command.ofName_oneLine hname]
    · rw [oneLine_of_notMem hline]

theorem ofLine_text_oneLine (htrim : trim line = c :: cs) (hcomment : c ≠ '#') (hcommand : c ≠ ':')
    (h : asksForRule (oneLine line) = false ∨ '\n' ∉ ruleText line) :
    ofLine (oneLine line) = (ofLine line).map onOneLine := by
  have htrim' := trim_oneLine_of_trim_eq_cons htrim
  have hone : c :: oneLine cs = oneLine (c :: cs) := by rw [← htrim', trim_oneLine, htrim]
  rw [ofLine_text htrim' hcomment hcommand, ofLine_text htrim hcomment hcommand, hone]
  rcases h with hrule | hline
  · rw [asksForRule_text (by simpa [htrim'] using hcommand), htrim', hone] at hrule
    have hrule' : isRuleLine (c :: cs) = false := by
      cases hline : isRuleLine (c :: cs) with
      | false => rfl
      | true =>
        rw [isRuleLine_oneLine hline] at hrule
        cases hrule
    rw [hrule, hrule']
    rfl
  · rw [ruleText_text (by simpa [htrim] using hcommand), htrim] at hline
    rw [oneLine_of_notMem hline]
    split
    · rw [onOneLine_command]
    · exact congrArg (fun text => Except.ok (trees text)) (oneLine_of_notMem hline).symm

/-- A line that sets no rule, or none over several lines, is the same request on one line. -/
theorem ofLine_oneLine (h : asksForRule (oneLine line) = false ∨ '\n' ∉ ruleText line) :
    ofLine (oneLine line) = (ofLine line).map onOneLine := by
  cases htrim : trim line with
  | nil =>
    have htrim' : trim (oneLine line) = [] := by rw [trim_oneLine, htrim, oneLine_nil]
    rw [ofLine_nil htrim', ofLine_nil htrim]
    rfl
  | cons c cs =>
    by_cases hcomment : c = '#'
    · subst hcomment
      rw [ofLine_comment (trim_oneLine_of_trim_eq_cons htrim), ofLine_comment htrim]
      rfl
    · by_cases hcommand : c = ':'
      · subst hcommand
        exact ofLine_command_oneLine htrim h
      · exact ofLine_text_oneLine htrim hcomment hcommand h

/-! ### Rules -/

theorem ruleText_oneLine (line : List Char) :
    ruleText (oneLine line) = oneLine (ruleText line) := by
  by_cases hcommand : (trim line).head? = some ':'
  · obtain ⟨cs, htrim⟩ := List.head?_eq_some_iff.mp hcommand
    have htrim' := trim_oneLine_of_trim_eq_cons htrim
    rw [ruleText_command htrim', ruleText_command htrim, firstWord?_oneLine]
    cases firstWord? cs with
    | none => rfl
    | some w => exact trim_oneLine w.2
  · have hcommand' : (trim (oneLine line)).head? ≠ some ':' := by
      rw [trim_oneLine, ne_eq, head?_oneLine_eq_iff (by decide)]
      exact hcommand
    rw [ruleText_text hcommand', ruleText_text hcommand, trim_oneLine]

/-- There are no blanks around the part that a rule is read from. -/
theorem exists_ruleText_eq_trim (line : List Char) : ∃ cs, ruleText line = trim cs := by
  unfold ruleText
  split
  · rename_i rest _
    cases firstWord? rest with
    | none => exact ⟨[], rfl⟩
    | some w => exact ⟨w.2, rfl⟩
  · exact ⟨line, rfl⟩

/-- The rule that a line sets is read from this part. -/
theorem ofText_of_ofLine (h : ofLine line = .ok (.command (.rule r))) :
    Rule.ofText (String.ofList (ruleText line)) = .ok r := by
  cases read_of_ofLine h with
  | command htrim hword hnamed =>
    rw [ruleText_command htrim, hword]
    exact hnamed.ofText
  | rule htrim _ hcommand _ hr =>
    rw [ruleText_text (by simpa [htrim] using hcommand), htrim]
    exact hr

/-- **A rule on several lines is another request** than it is on one line. -/
theorem ofLine_ne_of_newline (h : ofLine (oneLine line) = .ok (.command (.rule r)))
    (hnewline : '\n' ∈ ruleText line) : ofLine line ≠ .ok (.command (.rule r)) := by
  intro h'
  obtain ⟨cs, hcs⟩ := exists_ruleText_eq_trim line
  have hone := ofText_of_ofLine h
  have hseveral := ofText_of_ofLine h'
  rw [ruleText_oneLine, hcs] at hone
  rw [hcs] at hnewline hseveral
  exact Rule.ofText_ne_of_newline hnewline hone hseveral

end Request

/-! ## Sessions -/

namespace Session

theorem process_of_rule (h : Request.ofLine line = .ok (.command (.rule r))) (s : Session) :
    s.process line = ({ s with rule := some r }, some ("Rule set: " ++ r.render)) := by
  rw [process, execute, h]
  rfl

/-- The rule afterwards is the one before, perhaps with the session's settings, or the one that the
line sets. -/
theorem rule_process (s : Session) (line : List Char) :
    (s.process line).1.rule = s.rule ∨ (s.process line).1.rule = s.rule.map s.configure ∨
      ∃ r, Request.ofLine line = .ok (.command (.rule r)) ∧ (s.process line).1.rule = some r := by
  rw [process_fst, execute]
  cases Request.ofLine line with
  | error e => exact .inl rfl
  | ok request =>
    cases request with
    | nothing => exact .inl rfl
    | command c =>
      cases c with
      | rule r => exact .inr (.inr ⟨r, rfl, rfl⟩)
      | _ => exact .inl rfl
    | trees text =>
      right
      left
      cases hrule : s.rule with
      | none =>
        simp only [simplify, hrule]
        rfl
      | some r =>
        simp only [simplify, hrule]
        rfl

/-- The same request on one line has the same answer and leaves the same session. -/
theorem process_of_onOneLine
    (h : Request.ofLine (oneLine line) = (Request.ofLine line).map Request.onOneLine)
    (s : Session) : s.process (oneLine line) = s.process line := by
  rw [process, process, execute, execute, h]
  cases Request.ofLine line with
  | error e => rfl
  | ok request =>
    cases request with
    | nothing => rfl
    | command c => rfl
    | trees text =>
      simp only [Except.map, Request.onOneLine, simplify_oneLine]

/-- **A line feed is a blank, except in a rule.** A line is processed like the same line with a
space for every line feed, if that one sets no rule or there is no line feed in the part that a rule
is read from. Where there is one, a rule that is set from one line is not set from several: the
session has it afterwards only if it had it before. -/
theorem process_oneLine (s : Session) (line : List Char) :
    (Request.asksForRule (oneLine line) = false ∨ '\n' ∉ Request.ruleText line →
        s.process (oneLine line) = s.process line) ∧
      ∀ r, Request.ofLine (oneLine line) = .ok (.command (.rule r)) →
        '\n' ∈ Request.ruleText line →
        (s.process (oneLine line)).1.rule = some r ∧
          ((s.process line).1.rule = some r → s.rule.map s.configure = some (s.configure r)) := by
  refine ⟨fun h => process_of_onOneLine (Request.ofLine_oneLine h) s, fun r h hnewline => ?_⟩
  refine ⟨by rw [process_of_rule h], fun hrule => ?_⟩
  rcases rule_process s line with hsame | hconfigured | ⟨r', hset, hrule'⟩
  · rw [← hsame, hrule]
    rfl
  · rw [hrule] at hconfigured
    obtain ⟨r', -, rfl⟩ := Option.map_eq_some_iff.mp hconfigured.symm
    exact hconfigured.symm
  · rw [hrule] at hrule'
    cases hrule'
    exact absurd hset (Request.ofLine_ne_of_newline h hnewline)

/-- The rule `(f p_ q_) => (g p q)`. -/
def swapHead : Rule where
  pattern := .list [.atom (.letter 'f' rfl), .marker (some (.letter 'p' rfl)) .one,
    .marker (some (.letter 'q' rfl)) .one]
  template := .list [.atom (.letter 'g' rfl), .atom (.letter 'p' rfl), .atom (.letter 'q' rfl)]

/-- The text `(f p_` and, below it, ` q_) => (g p q)`. -/
def swapHeadText : List Char := "(f p_\n q_) => (g p q)".toList

/-- A tree on two lines is the same tree on one line. A rule on two lines is not set, as it is from
one line, because the session had no rule before. -/
theorem process_two_lines :
    let tree := "(f\n a)".toList
    Request.asksForRule (oneLine tree) = false ∧
      fresh.process (oneLine tree) = fresh.process tree ∧
      Request.ofLine (oneLine swapHeadText) = .ok (.command (.rule swapHead)) ∧
      '\n' ∈ Request.ruleText swapHeadText ∧
      (fresh.process (oneLine swapHeadText)).1.rule = some swapHead ∧
      (fresh.process swapHeadText).1.rule ≠ some swapHead := by
  intro tree
  have htree : Request.asksForRule (oneLine tree) = false := by decide +kernel
  have hset : Request.ofLine (oneLine swapHeadText) = .ok (.command (.rule swapHead)) := rfl
  have hnewline : '\n' ∈ Request.ruleText swapHeadText := by decide +kernel
  obtain ⟨hsame, -⟩ := process_oneLine fresh tree
  obtain ⟨-, hrule⟩ := process_oneLine fresh swapHeadText
  obtain ⟨hone, hseveral⟩ := hrule swapHead hset hnewline
  refine ⟨htree, hsame (.inl htree), hset, hnewline, hone, fun h => ?_⟩
  have hbefore : fresh.rule.map fresh.configure = some (fresh.configure swapHead) := hseveral h
  cases hbefore

/-- **A rule typed on two lines is not set.** The prompt takes both lines for one text, since the
first leaves a parenthesis open; but the second line by itself is taken for the rule. -/
theorem prompt_misses_rule :
    let typed : Prompt :=
      (Prompt.run false ⟨fresh, []⟩ [.line "(f p_".toList, .line " q_) => (g p q)".toList]).1
    typed.session.rule = none ∧ openParens "(f p_".toList > 0 ∧
      fresh.process swapHeadText =
        (fresh, some "Error: unbalanced parentheses at position 2") ∧
      fresh.process (oneLine swapHeadText) =
        ({ fresh with rule := some swapHead }, some "Rule set: (f p_ q_) => (g p q)") := by
  have hfailed : fresh.execute swapHeadText =
      (fresh, .error (.rule (.unreadable ⟨.unbalanced, 2⟩))) := rfl
  have herror : errorText (.rule (.unreadable ⟨.unbalanced, 2⟩)) =
      "Error: unbalanced parentheses at position 2" := by decide +kernel
  have hset : Request.ofLine (oneLine swapHeadText) = .ok (.command (.rule swapHead)) := rfl
  have hsaid : "Rule set: " ++ swapHead.render = "Rule set: (f p_ q_) => (g p q)" := by
    decide +kernel
  refine ⟨rfl, by decide +kernel, ?_, ?_⟩
  · rw [process, hfailed, ← herror]
  · rw [process_of_rule hset, hsaid]

end Session

end TreeRules
