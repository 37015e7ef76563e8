import TreeRules.Session.Basic

/-!
# How a line is read

What a line asks for is told by the first character that is no blank: nothing, a comment, a command,
or a text that holds a rule or trees. The relations `Command.Named` and `Request.Read` have one
constructor for each way to be read, with what has been read on this way. Whoever wants to know what
a line that was read can be goes through their cases, and not through the reader.
-/

namespace TreeRules

open Text

variable {c : Char} {cs line arg : List Char} {name : String} {request : Request} {e : Failure}

/-! ## Commands -/

namespace Command

/-- What a command of this name, in lower case, can be, given its argument. -/
inductive Named (arg : List Char) : String → Command → Prop where
  /-- whatever the argument -/
  | help : Named arg "help" .help
  /-- under any of three names -/
  | quit {name : String} : name ∈ ["quit", "exit", "q"] → Named arg name .quit
  /-- the argument holds this rule -/
  | rule {r : Rule} : Rule.ofText (String.ofList arg) = .ok r → Named arg "rule" (.rule r)
  /-- whatever the argument -/
  | showSettings : Named arg "show" .showSettings
  /-- the argument, in any case, is the name of this strategy -/
  | strategy {strategy : Strategy} :
      Strategy.ofName? (String.ofList (lower arg)) = some strategy →
      Named arg "strategy" (.strategy strategy)
  /-- the argument is this number -/
  | limit {n : Int} : readLimit arg = .ok n → Named arg "limit" (.limit n)
  /-- whatever the argument: what says neither on nor off switches -/
  | strict : Named arg "strict" (.strict (Switch.ofChars arg))
  /-- likewise -/
  | trace : Named arg "trace" (.trace (Switch.ofChars arg))

/-- A rule that a command sets is read from its argument. -/
theorem Named.ofText {r : Rule} (h : Named arg name (.rule r)) :
    Rule.ofText (String.ofList arg) = .ok r := by
  cases h with
  | rule hr => exact hr

/-- A command of this name sets a rule. -/
theorem Named.exists_rule {command : Command} (h : Named arg name command)
    (hname : name = "rule") : ∃ r, command = .rule r := by
  cases h with
  | rule _ => exact ⟨_, rfl⟩
  | quit hquit =>
    rw [hname] at hquit
    exact absurd hquit (by simp)
  | _ => exact absurd hname (by decide)

/-- What sets a rule is that and nothing else. -/
theorem exists_rule_of_setRule {text : List Char} {command : Command}
    (h : setRule text = .ok command) :
    ∃ r, Rule.ofText (String.ofList text) = .ok r ∧ command = .rule r := by
  rw [setRule] at h
  split at h
  · rename_i r hr
    cases h
    exact ⟨r, hr, rfl⟩
  · cases h

theorem named_of_ofName {command : Command} (h : ofName name arg = .ok command) :
    Named arg name command := by
  unfold ofName at h
  split at h
  · cases h
    exact .help
  · cases h
    exact .quit (by simp)
  · cases h
    exact .quit (by simp)
  · cases h
    exact .quit (by simp)
  · split at h
    · cases h
    · obtain ⟨r, hr, rfl⟩ := exists_rule_of_setRule h
      exact .rule hr
  · cases h
    exact .showSettings
  · split at h
    · rename_i hstrategy
      cases h
      exact .strategy hstrategy
    · cases h
  · split at h
    · rename_i hlimit
      cases h
      exact .limit hlimit
    · cases h
  · cases h
    exact .strict
  · cases h
    exact .trace
  · cases h

/-- A command has a name. -/
theorem exists_name_of_ofLine {command : Command} (h : ofLine (c :: cs) = .ok command) :
    ∃ w, firstWord? cs = some w ∧ Named (trim w.2) (String.ofList (lower w.1)) command := by
  rw [ofLine, List.drop_one, List.tail_cons] at h
  split at h
  · cases h
  · rename_i word rest hword
    exact ⟨(word, rest), hword, named_of_ofName h⟩

end Command

/-! ## Requests -/

namespace Request

/-! The four kinds of line: nothing, a comment, a command, and a text. -/

theorem ofLine_nil (h : trim line = []) : ofLine line = .ok .nothing := by
  rw [ofLine, h]

theorem ofLine_comment (h : trim line = '#' :: cs) : ofLine line = .ok .nothing := by
  rw [ofLine, h]
  rfl

theorem ofLine_command (h : trim line = ':' :: cs) :
    ofLine line = (Command.ofLine (':' :: cs)).map .command := by
  rw [ofLine, h]
  rfl

theorem ofLine_text (h : trim line = c :: cs) (hcomment : c ≠ '#') (hcommand : c ≠ ':') :
    ofLine line = if isRuleLine (c :: cs) then (Command.setRule (c :: cs)).map .command
      else .ok (.trees (c :: cs)) := by
  unfold ofLine
  rw [h]
  split
  · rename_i heq
    cases heq
  · rename_i heq
    exact absurd (List.cons.inj heq).1 hcomment
  · rename_i heq
    exact absurd (List.cons.inj heq).1 hcommand
  · rfl

/-- What a line can be read as. -/
inductive Read (line : List Char) : Request → Prop where
  /-- there is nothing on the line -/
  | blank : trim line = [] → Read line .nothing
  /-- the line is a comment -/
  | comment {cs : List Char} : trim line = '#' :: cs → Read line .nothing
  /-- behind a colon and a name there is the argument of a command -/
  | command {cs : List Char} {w : List Char × List Char} {command : Command} :
      trim line = ':' :: cs → firstWord? cs = some w →
      Command.Named (trim w.2) (String.ofList (lower w.1)) command → Read line (.command command)
  /-- the line is a rule -/
  | rule {c : Char} {cs : List Char} {r : Rule} : trim line = c :: cs → c ≠ '#' → c ≠ ':' →
      isRuleLine (c :: cs) = true → Rule.ofText (String.ofList (c :: cs)) = .ok r →
      Read line (.command (.rule r))
  /-- the line is anything else -/
  | trees {c : Char} {cs : List Char} : trim line = c :: cs → c ≠ '#' → c ≠ ':' →
      isRuleLine (c :: cs) = false → Read line (.trees (c :: cs))

theorem exists_of_map_command {result : Except Failure Command}
    (h : result.map command = .ok request) :
    ∃ command, result = .ok command ∧ request = .command command := by
  cases result with
  | error e => cases h
  | ok command =>
    cases h
    exact ⟨command, rfl, rfl⟩

theorem eq_error_of_map_command {result : Except Failure Command}
    (h : result.map command = .error e) : result = .error e := by
  cases result with
  | error e' =>
    cases h
    rfl
  | ok command => cases h

theorem read_of_ofLine (h : ofLine line = .ok request) : Read line request := by
  cases htrim : trim line with
  | nil =>
    rw [ofLine_nil htrim] at h
    cases h
    exact .blank htrim
  | cons c cs =>
    by_cases hcomment : c = '#'
    · subst hcomment
      rw [ofLine_comment htrim] at h
      cases h
      exact .comment htrim
    · by_cases hcommand : c = ':'
      · subst hcommand
        rw [ofLine_command htrim] at h
        obtain ⟨command, hread, rfl⟩ := exists_of_map_command h
        obtain ⟨w, hword, hnamed⟩ := Command.exists_name_of_ofLine hread
        exact .command htrim hword hnamed
      · rw [ofLine_text htrim hcomment hcommand] at h
        split at h
        · rename_i hrule
          obtain ⟨command, hread, rfl⟩ := exists_of_map_command h
          obtain ⟨r, hr, rfl⟩ := Command.exists_rule_of_setRule hread
          exact .rule htrim hcomment hcommand hrule hr
        · rename_i hrule
          cases h
          exact .trees htrim hcomment hcommand (Bool.eq_false_iff.mpr hrule)

end Request

/-! ## Executing and processing -/

namespace Session

/-- Whether a line is answered or has failed, the session is the one it leaves. -/
theorem process_fst (s : Session) (line : List Char) : (s.process line).1 = (s.execute line).1 := by
  rw [process]
  rcases s.execute line with ⟨s', e | answer⟩ <;> rfl

/-- Whether a line is processed or executed, the answer is the same, and a failure is put into
words. -/
theorem process_snd (s : Session) (line : List Char) :
    (s.process line).2 =
      match (s.execute line).2 with
      | .ok answer => answer.text
      | .error e => some (errorText e) := by
  rw [process]
  rcases s.execute line with ⟨s', e | answer⟩ <;> rfl

end Session

end TreeRules
