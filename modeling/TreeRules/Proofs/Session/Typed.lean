import TreeRules.Proofs.Session.Aside
import TreeRules.Proofs.Session.Turns

/-!
# Scripts and typed lines

A script is executed line by line. At the prompt a line is executed by itself only if it closes all
parentheses that it opens; otherwise it is collected, and the line after it with it. Take the lines
of a script that is executed to its end, and type them (`Prompt.run_of_script`):

* A line is executed by itself unless it says more opening than closing parentheses aside. Trees and
  rules need no look: what can be executed is complete.
* If no line does, the prompt goes through the same sessions as the script and has the same
  answers. It shows more of them, for a script keeps what its commands have to say to itself.
* After a comment like `# see (1`, the lines below it are swallowed (`Prompt.swallows_script`).

What both have in common are the turns of the session (`Executed`).
-/

namespace TreeRules

open Text

variable {verbose : Bool} {s s' last : Session} {line : List Char} {answer : Answer}

/-! ## Lines at the prompt -/

/-- Is the line to stop the session? -/
def Request.asksToQuit (line : List Char) : Bool :=
  match ofLine line with
  | .ok (.command .quit) => true
  | _ => false

/-- Nothing else stops a session. -/
theorem Session.running_execute (hquit : Request.asksToQuit line = false) (s : Session) :
    (s.execute line).1.running = s.running := by
  rw [Request.asksToQuit] at hquit
  rw [execute]
  cases hread : Request.ofLine line with
  | error e => rfl
  | ok request =>
    rw [hread] at hquit
    cases request with
    | nothing => rfl
    | command c =>
      cases c with
      | quit => cases hquit
      | _ => rfl
    | trees text =>
      cases hrule : s.rule with
      | none => simp [simplify, hrule]
      | some r => simp [simplify, hrule]

namespace Prompt

/-- All that is shown while these turns are taken one after another, up to the end of the input. -/
def transcript (verbose : Bool) (turns : List Turn) : List Emission :=
  (turns.flatMap fun t => .out "ers> " :: t.atPrompt verbose) ++ .out "ers> " :: atEnd

/-- A line that is complete is executed. -/
theorem step_of_execute (h : s.execute line = (s', .ok answer)) (hparens : openParens line ≤ 0) :
    step verbose ⟨s, []⟩ (.line line) = (⟨s', []⟩, Turn.atPrompt verbose ⟨s, line, answer⟩) := by
  have htext : extend ⟨s, []⟩ line = line := rfl
  have hnot : ¬ openParens line > 0 := by omega
  rw [step, htext, if_neg hnot, Session.process, h]
  rfl

/-- A line that is not is collected. -/
theorem step_of_openParens_pos (hparens : 0 < openParens line) (s : Session) :
    step verbose ⟨s, []⟩ (.line line) = (⟨s, line⟩, []) := by
  have htext : extend ⟨s, []⟩ line = line := rfl
  rw [step, htext, if_pos hparens]

/-- **Complete lines are executed one after another** as they are typed. -/
theorem run_of_executed {turns : List Turn} (h : Executed s turns last)
    (hrunning : s.running = true) (hquit : ∀ t ∈ turns, Request.asksToQuit t.line = false)
    (hparens : ∀ t ∈ turns, openParens t.line ≤ 0) :
    run verbose ⟨s, []⟩ (turns.map fun t => .line t.line) =
      (⟨last, []⟩, transcript verbose turns) := by
  induction h with
  | nil s =>
    rw [List.map_nil, run, if_pos hrunning]
    rfl
  | @cons s s' last line answer turns hline hrest ih =>
    rw [List.forall_mem_cons] at hquit hparens
    have hrunning' : s'.running = true := by
      have hsame := Session.running_execute hquit.1 s
      rw [hline] at hsame
      rw [hsame, hrunning]
    have hstep : step verbose ⟨s, []⟩ (.line line) = _ := step_of_execute hline hparens.1
    rw [List.map_cons, run, if_pos hrunning]
    simp only [hstep, ih hrunning' hquit.2 hparens.2]
    simp [mark, transcript]

/-- **The prompt agrees with a script** on lines that say no more opening than closing parentheses
aside. The lines of a script that does not fail are turns of a session. Typed where its turn begins,
a line is executed by itself, with the answer of that turn; if it does say more aside, it is only
collected. If none of the lines is collected and none is to quit, all of them together lead the
prompt to the session that the script ends with, and show its results in their order. -/
theorem run_of_script (verbose : Bool) (name : String) (text : List Char)
    (hcode : (runScript verbose name .fresh text).code = 0) :
    ∃ turns, turns.map Turn.line = linesAt isLineBreak (unifyNewlines text) ∧
      Executed .fresh turns (runScript verbose name .fresh text).session ∧
      (runScript verbose name .fresh text).emissions = turns.flatMap (Turn.inScript verbose) ∧
      (∀ t ∈ turns, step verbose ⟨t.session, []⟩ (.line t.line) =
        if openParens (Request.aside t.line) ≤ 0 then
          (⟨(t.session.execute t.line).1, []⟩, t.atPrompt verbose)
        else (⟨t.session, t.line⟩, [])) ∧
      ((∀ t ∈ turns, Request.asksToQuit t.line = false) →
        (∀ t ∈ turns, openParens (Request.aside t.line) ≤ 0) →
          run verbose ⟨.fresh, []⟩ (turns.map fun t => .line t.line) =
            (⟨(runScript verbose name .fresh text).session, []⟩, transcript verbose turns)) := by
  obtain ⟨turns, hturns, hexecuted, hshown⟩ := exists_executed_of_runBatch hcode
  have hnewline : ∀ t ∈ turns, '\n' ∉ t.line := by
    intro t ht hmem
    have hline : t.line ∈ linesAt isLineBreak (unifyNewlines text) := by
      rw [← hturns]
      exact List.mem_map_of_mem ht
    cases not_isEnd_of_mem_linesAt hline hmem
  have haside : ∀ t ∈ turns, openParens t.line = openParens (Request.aside t.line) := by
    intro t ht
    obtain ⟨s', hs'⟩ := hexecuted.execute_of_mem t ht
    exact Session.openParens_eq_aside hs' (hnewline t ht)
  have hscript : (runScript verbose name .fresh text).emissions =
      turns.flatMap (Turn.inScript verbose) := by
    rw [runScript, hshown]
    exact congrArg turns.flatMap (funext fun t => t.inBatch_script verbose name)
  refine ⟨turns, hturns, hexecuted, hscript, fun t ht => ?_, fun hquit hclosed => ?_⟩
  · obtain ⟨s', hs'⟩ := hexecuted.execute_of_mem t ht
    rw [← haside t ht, hs']
    split
    · rename_i hparens
      exact step_of_execute hs' hparens
    · rename_i hparens
      exact step_of_openParens_pos (by omega) t.session
  · refine run_of_executed hexecuted rfl hquit fun t ht => ?_
    rw [haside t ht]
    exact hclosed t ht

/-- A script with a comment, a rule, a command and a tree. The comment closes what it opens, so the
lines can be typed, and show the script's result among the other answers. -/
theorem run_of_script_with_comment :
    let text := "# the (one) rule\nx => y\n:limit 5\n(f x)".toList
    let lines := linesAt isLineBreak (unifyNewlines text)
    (runScript false "s" .fresh text).code = 0 ∧
      (∀ line ∈ lines, Request.asksToQuit line = false) ∧
      (∀ line ∈ lines, openParens (Request.aside line) ≤ 0) ∧
      (run false ⟨.fresh, []⟩ (lines.map .line)).1 =
        ⟨(runScript false "s" .fresh text).session, []⟩ ∧
      (runScript false "s" .fresh text).emissions = [.out "(f y)\n"] ∧
      Emission.outText (run false ⟨.fresh, []⟩ (lines.map .line)).2 =
        "ers> ers> Rule set: x => y\ners> Limit set to: 5\ners> (f y)\ners> \n" := by
  intro text lines
  have hcode : (runScript false "s" .fresh text).code = 0 := by decide +kernel
  have hquit : ∀ line ∈ lines, Request.asksToQuit line = false := by decide +kernel
  have hclosed : ∀ line ∈ lines, openParens (Request.aside line) ≤ 0 := by decide +kernel
  obtain ⟨turns, hturns, -, -, -, hrun⟩ := run_of_script false "s" text hcode
  have hlines : lines.map Event.line = turns.map fun t => .line t.line := by
    rw [show lines = turns.map Turn.line from hturns.symm, List.map_map]
    rfl
  have hline : ∀ t ∈ turns, t.line ∈ lines := by
    intro t ht
    rw [show lines = turns.map Turn.line from hturns.symm]
    exact List.mem_map_of_mem ht
  have hagrees := hrun (fun t ht => hquit _ (hline t ht)) fun t ht => hclosed _ (hline t ht)
  refine ⟨hcode, hquit, hclosed, ?_, by decide +kernel, by decide +kernel⟩
  rw [hlines, hagrees]

/-- **After a comment with an open parenthesis the prompt swallows the rest of the script.** Nothing
on the line is a tree, and the script skips it, sets the rule and shows a result. At the prompt all
three lines are collected for a parenthesis that is never closed: there is no rule and no result. -/
theorem swallows_script :
    let text := "# see (1\nx => y\nx".toList
    let lines := ["# see (1".toList, "x => y".toList, "x".toList]
    linesAt isLineBreak (unifyNewlines text) = lines ∧
      (∀ line ∈ lines, Request.asksToQuit line = false) ∧
      (runScript false "s" .fresh text).code = 0 ∧
      (runScript false "s" .fresh text).session.rule.isSome = true ∧
      (runScript false "s" .fresh text).emissions = [.out "y\n"] ∧
      (run false ⟨.fresh, []⟩ (lines.map .line)).1.session.rule.isSome = false ∧
      (run false ⟨.fresh, []⟩ (lines.map .line)).2 =
        [.out "ers> ", .out "...... ", .out "...... ", .out "...... ", .out "\n"] := by
  decide +kernel

end Prompt

end TreeRules
