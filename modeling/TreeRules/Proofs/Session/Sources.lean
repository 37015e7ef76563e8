import TreeRules.CommandLine.Run
import TreeRules.Proofs.Session.OneLine
import TreeRules.Proofs.Session.Turns
import TreeRules.Proofs.Text.Written

/-!
# Scripts and standard input

The same lines may come from a script or from standard input. Either way they are the same turns of
the session, up to the same fault, and the code tells whether there was one
(`script_agrees_with_input`). What differs is what is shown: standard input shows all that the
session has to say, a script leaves out what it says to commands, rules included; and a script tells
where a fault is.
-/

namespace TreeRules

open Text

variable {verbose : Bool} {s s' : Session} {line : List Char} {answer : Answer}

/-! ## Texts of both outputs -/

namespace Emission

variable {α : Type}

theorem outText_append (es es' : List Emission) :
    outText (es ++ es') = outText es ++ outText es' := by
  rw [outText, List.map_append, String.join_append]
  rfl

theorem errText_append (es es' : List Emission) :
    errText (es ++ es') = errText es ++ errText es' := by
  rw [errText, List.map_append, String.join_append]
  rfl

theorem outText_flatMap (f : α → List Emission) (xs : List α) :
    outText (xs.flatMap f) = String.join (xs.map fun x => outText (f x)) := by
  induction xs with
  | nil => rfl
  | cons x xs ih =>
    rw [List.flatMap_cons, outText_append, ih, List.map_cons, String.join_cons]

theorem errText_flatMap (f : α → List Emission) (xs : List α) :
    errText (xs.flatMap f) = String.join (xs.map fun x => errText (f x)) := by
  induction xs with
  | nil => rfl
  | cons x xs ih =>
    rw [List.flatMap_cons, errText_append, ih, List.map_cons, String.join_cons]

/-- Notes are for the watcher only. -/
theorem outText_notes (verbose : Bool) (s : Session) (line : List Char) :
    outText (notes verbose s line) = "" := by
  rw [notes]
  split
  · induction s.notes line with
    | nil => rfl
    | cons n ns ih =>
      rw [List.map_cons, ← List.singleton_append, outText_append, ih]
      rfl
  · rfl

/-- Answers are not for the watcher. -/
theorem errText_lineIfAny (text : Option String) : errText (lineIfAny text) = "" := by
  rw [lineIfAny]
  split <;> rfl

end Emission

/-- What is kept by a condition is what is not replaced by nothing. -/
theorem join_map_filter {α : Type} (p : α → Bool) (f : α → String) (xs : List α) :
    String.join ((xs.filter p).map f) = String.join (xs.map fun x => if p x then f x else "") := by
  induction xs with
  | nil => rfl
  | cons x xs ih =>
    rw [List.map_cons, String.join_cons, ← ih, List.filter_cons]
    cases p x with
    | true => rw [if_pos rfl, if_pos rfl, List.map_cons, String.join_cons]
    | false =>
      rw [if_neg Bool.false_ne_true, if_neg Bool.false_ne_true, String.empty_append]

/-! ## Commands -/

/-- Is the line a command? A line that holds a rule is one as well. -/
def Request.isCommand (line : List Char) : Bool :=
  (trim line).head? == some ':' || isRuleLine (trim line)

/-- What is executed as a command is one. -/
theorem Request.isCommand_of_ofLine {request : Request} (h : ofLine line = .ok request) :
    isCommand line = match request with
      | .command _ => true
      | _ => false := by
  rw [isCommand]
  cases read_of_ofLine h with
  | blank htrim =>
    rw [htrim]
    rfl
  | comment htrim =>
    rw [isRuleLine_comment htrim, htrim]
    rfl
  | command htrim _ _ =>
    rw [htrim]
    rfl
  | rule htrim _ _ hrule _ => rw [htrim, hrule, Bool.or_true]
  | trees htrim _ hcommand hrule =>
    rw [htrim, hrule]
    simpa using hcommand

/-- The answer to a command is no result. Any other answer is one, or says nothing. -/
theorem Session.isResult_of_execute (h : s.execute line = (s', .ok answer)) :
    answer.isResult = !Request.isCommand line ∨ answer.text = none := by
  rw [execute] at h
  cases hread : Request.ofLine line with
  | error e =>
    rw [hread] at h
    cases h
  | ok request =>
    rw [hread] at h
    rw [Request.isCommand_of_ofLine hread]
    cases request with
    | nothing =>
      cases h
      exact .inr rfl
    | command c =>
      cases h
      exact .inl rfl
    | trees text =>
      cases hresult : (s.simplify text).2 with
      | error e =>
        simp only [hresult] at h
        cases h
      | ok output =>
        simp only [hresult] at h
        cases h
        exact .inl rfl

/-! ## What is shown of a turn -/

namespace Turn

/-- The answer of a turn, on a line of its own. -/
def said (t : Turn) : String := Emission.outText (Emission.lineIfAny t.answer.text)

/-- The notes of a turn. -/
def told (verbose : Bool) (t : Turn) : String :=
  Emission.errText (Emission.notes verbose t.session t.line)

theorem outText_inBatch_input (verbose : Bool) (t : Turn) :
    Emission.outText (t.inBatch verbose .input) = t.said := by
  rw [inBatch, Emission.outText_append, Emission.outText_notes, String.empty_append]
  rfl

/-- A script shows no answer to a command. -/
theorem outText_inBatch_script (verbose : Bool) (name : String) {t : Turn}
    (h : t.session.execute t.line = (s', .ok t.answer)) :
    Emission.outText (t.inBatch verbose (.script name)) =
      if !Request.isCommand t.line then t.said else "" := by
  rw [inBatch, Emission.outText_append, Emission.outText_notes, String.empty_append, Source.shown]
  obtain hresult | hnone := Session.isResult_of_execute h
  · rw [hresult]
    split <;> rfl
  · rw [said, hnone]
    split <;> split <;> rfl

theorem errText_inBatch (verbose : Bool) (source : Source) (t : Turn) :
    Emission.errText (t.inBatch verbose source) = t.told verbose := by
  rw [inBatch, Emission.errText_append, Emission.errText_lineIfAny, String.append_empty]
  rfl

end Turn

namespace Fault

/-- The notes of a fault. -/
def told (verbose : Bool) (f : Fault) : String :=
  Emission.errText (Emission.notes verbose f.session f.line)

/-- There is no result where there is a fault. -/
theorem outText_inBatch (verbose : Bool) (source : Source) (number : Nat) (f : Fault) :
    Emission.outText (f.inBatch verbose source number) = "" := by
  rw [inBatch, Emission.outText_append, Emission.outText_notes, String.empty_append]
  rfl

theorem errText_inBatch (verbose : Bool) (source : Source) (number : Nat) (f : Fault) :
    Emission.errText (f.inBatch verbose source number) =
      f.told verbose ++ (source.failureText number f.failure ++ "\n") := by
  rw [inBatch, Emission.errText_append]
  exact congrArg (f.told verbose ++ ·) String.empty_append

end Fault

/-! ## Batches -/

section Batch

variable {name : String} {number : Nat} {last : Session} {lines : List (List Char)}
  {turns : List Turn} {fault : Option Fault}

/-- Each turn of a batch is one. -/
theorem Stopped.execute_of_mem (h : Stopped s lines turns fault last) :
    ∀ t ∈ turns, ∃ s', t.session.execute t.line = (s', .ok t.answer) := by
  cases h with
  | atEnd hturns => exact hturns.execute_of_mem
  | atFault hturns _ _ => exact hturns.execute_of_mem

/-- Where a batch stops there is no result. -/
theorem outText_fault (verbose : Bool) (source : Source) (number : Nat) (fault : Option Fault) :
    Emission.outText (fault.elim [] (Fault.inBatch verbose source number)) = "" := by
  cases fault with
  | none => rfl
  | some f => exact f.outText_inBatch verbose source number

/-- Standard input shows the answers of all turns. -/
theorem outText_runBatch_input (h : Stopped s lines turns fault last) :
    Emission.outText (runBatch verbose .input number s lines).emissions =
      String.join (turns.map Turn.said) := by
  rw [runBatch_of_stopped h]
  simp only [Emission.outText_append, Emission.outText_flatMap, outText_fault,
    Turn.outText_inBatch_input, String.append_empty]

/-- A script shows the answers of those that are no commands. -/
theorem outText_runBatch_script (h : Stopped s lines turns fault last) :
    Emission.outText (runBatch verbose (.script name) number s lines).emissions =
      String.join ((turns.filter fun t => !Request.isCommand t.line).map Turn.said) := by
  have hshown : ∀ t ∈ turns, Emission.outText (t.inBatch verbose (.script name)) =
      if !Request.isCommand t.line then t.said else "" := by
    intro t ht
    obtain ⟨s', hs'⟩ := h.execute_of_mem t ht
    exact t.outText_inBatch_script verbose name hs'
  rw [runBatch_of_stopped h, join_map_filter]
  simp only [Emission.outText_append, Emission.outText_flatMap, outText_fault, String.append_empty]
  rw [List.map_congr_left hshown]

/-- Whoever watches is told the notes of all turns, and those of the fault with its failure. -/
theorem errText_runBatch {source : Source} (h : Stopped s lines turns fault last) :
    Emission.errText (runBatch verbose source number s lines).emissions =
      String.join (turns.map (Turn.told verbose)) ++ (fault.elim "" fun f =>
        f.told verbose ++ (source.failureText (number + turns.length) f.failure ++ "\n")) := by
  rw [runBatch_of_stopped h]
  simp only [Emission.errText_append, Emission.errText_flatMap, Turn.errText_inBatch]
  cases fault with
  | none => rfl
  | some f => exact congrArg _ (f.errText_inBatch verbose source _)

end Batch

/-- **A script and standard input run the same program.** The lines that both hold are executed up
to the same fault, through the same sessions, to the same code: zero if every line has an answer,
and one if a line has none. Standard input shows the answers in front of the fault, and a script
those of them that are no answers to commands; the failure itself is for the watcher. And this is
what the program does that has been given the script, or no more than standard input. -/
theorem script_agrees_with_input (verbose : Bool) (name : String) (s : Session)
    {lines : List (List Char)} {script input : List Char}
    (hlines : ∀ line ∈ lines, ∀ c ∈ line, isLineBreak c = false)
    (hscript : Written lines script) (hinput : Written lines input) :
    (∃ turns fault last, Stopped s lines turns fault last ∧
      (runScript verbose name s script).session = last ∧
      (runInput verbose s input).session = last ∧
      (runScript verbose name s script).code = (if fault.isSome then 1 else 0) ∧
      (runInput verbose s input).code = (if fault.isSome then 1 else 0) ∧
      Emission.outText (runInput verbose s input).emissions = String.join (turns.map Turn.said) ∧
      Emission.outText (runScript verbose name s script).emissions =
        String.join ((turns.filter fun t => !Request.isCommand t.line).map Turn.said) ∧
      Emission.errText (runInput verbose s input).emissions =
        String.join (turns.map (Turn.told verbose)) ++ (fault.elim "" fun f =>
          f.told verbose ++ (Session.errorText f.failure ++ "\n")) ∧
      Emission.errText (runScript verbose name s script).emissions =
        String.join (turns.map (Turn.told verbose)) ++ (fault.elim "" fun f =>
          f.told verbose ++
            (s!"{name}:{turns.length + 1}: " ++ Session.errorText f.failure ++ "\n"))) ∧
    ∀ readFile stdin, readFile name = .ok (String.ofList script) →
      (Plan.script verbose name s).run readFile stdin =
          .ok ((runScript verbose name s script).emissions,
            (runScript verbose name s script).code) ∧
        (Plan.input verbose s).run readFile (.piped input) =
          .ok ((runInput verbose s input).emissions, (runInput verbose s input).code) := by
  have hfromScript : linesAt isLineBreak (unifyNewlines script) = lines :=
    hscript.linesAt_unifyNewlines hlines (by decide) fun _ hc => hc
  have hfromInput : linesAt isNewline (unifyNewlines input) = lines := by
    refine hinput.linesAt_unifyNewlines hlines (by decide) fun c hc => ?_
    rw [isNewline, beq_iff_eq] at hc
    rw [hc]
    decide
  obtain ⟨turns, fault, last, hstopped⟩ := exists_stopped s lines
  refine ⟨⟨turns, fault, last, hstopped, ?_⟩, fun readFile stdin hread => ?_⟩
  · rw [runScript, runInput, hfromScript, hfromInput]
    refine ⟨?_, ?_, ?_, ?_, outText_runBatch_input hstopped, outText_runBatch_script hstopped,
      errText_runBatch hstopped, ?_⟩
    · rw [runBatch_of_stopped hstopped]
    · rw [runBatch_of_stopped hstopped]
    · rw [runBatch_of_stopped hstopped]
    · rw [runBatch_of_stopped hstopped]
    · rw [errText_runBatch hstopped, Nat.add_comm 1]
      rfl
  · rw [Plan.run, hread, Plan.runFile, String.toList_ofList]
    exact ⟨rfl, rfl⟩

/-- A list is left open on the fourth of five lines. -/
theorem script_agrees_with_input_up_to_fault :
    let lines :=
      [":limit 3".toList, "x => y".toList, "(f x)".toList, "(f".toList, "(g x)".toList]
    let script := lines.flatMap (· ++ ['\n'])
    let input := ['\n'].intercalate lines
    let readFile : String → Except FileFault String := fun _ => .ok (String.ofList script)
    let ran := runScript false "s" .fresh script
    let filtered := runInput false .fresh input
    (∀ line ∈ lines, ∀ c ∈ line, isLineBreak c = false) ∧ Written lines script ∧
      Written lines input ∧ readFile "s" = .ok (String.ofList script) ∧
      (∃ turns fault, Stopped .fresh lines turns fault ran.session) ∧
      filtered.session = ran.session ∧
      (Plan.script false "s" .fresh).run readFile (.piped []) = .ok (ran.emissions, 1) ∧
      (Plan.input false .fresh).run readFile (.piped input) = .ok (filtered.emissions, 1) ∧
      Emission.outText filtered.emissions = "Limit set to: 3\nRule set: x => y\n(f y)\n" ∧
      Emission.outText ran.emissions = "(f y)\n" ∧
      Emission.errText filtered.emissions = "Error: unbalanced parentheses at position 2\n" ∧
      Emission.errText ran.emissions = "s:4: Error: unbalanced parentheses at position 2\n" := by
  intro lines script input readFile ran filtered
  have hall : (lines.all fun line => line.all fun c => !isLineBreak c) = true := by decide +kernel
  have hlines : ∀ line ∈ lines, ∀ c ∈ line, isLineBreak c = false := by
    intro line hline c hc
    have hline' := List.all_eq_true.mp (List.all_eq_true.mp hall line hline) c hc
    simpa using hline'
  have hscript : Written lines script := written_flatMap lines
  have hinput : Written lines input := written_intercalate (by decide +kernel)
  obtain ⟨⟨turns, fault, last, hstopped, hran, hfiltered, -⟩, hplan⟩ :=
    script_agrees_with_input false "s" .fresh hlines hscript hinput
  obtain ⟨hplanScript, -⟩ := hplan readFile (.piped []) rfl
  obtain ⟨-, hplanInput⟩ := hplan readFile (.piped input) rfl
  have hcode : ran.code = 1 ∧ filtered.code = 1 := by decide +kernel
  rw [hcode.1] at hplanScript
  rw [hcode.2] at hplanInput
  refine ⟨hlines, hscript, hinput, rfl, ⟨turns, fault, hran ▸ hstopped⟩, hfiltered.trans hran.symm,
    hplanScript, hplanInput, ?_⟩
  decide +kernel

end TreeRules
