import TreeRules.Batch

/-!
# Turns of a session

Lines executed one after another are turns of a session: a line and the answer to it, in the state
that the lines before have left (`Executed`). A batch takes turns up to the first line that fails,
or to its end (`Stopped`), and what it shows is made of what it shows of each turn and of the fault
(`runBatch_of_stopped`). Which turns these are does not depend on where its lines come from.
-/

namespace TreeRules

variable {verbose : Bool} {source : Source} {number : Nat} {s s' last : Session}
  {line : List Char} {lines : List (List Char)} {answer : Answer}

/-! ## Turns -/

/-- A line that a session has an answer to. -/
structure Turn where
  /-- the session that the line is for -/
  session : Session
  /-- the line -/
  line : List Char
  /-- the answer -/
  answer : Answer

/-- Lines executed one after another, none of which fails. -/
inductive Executed : Session → List Turn → Session → Prop where
  /-- nothing is executed -/
  | nil (s : Session) : Executed s [] s
  /-- a line is executed, and others after it -/
  | cons {s s' last : Session} {line : List Char} {answer : Answer} {turns : List Turn} :
    s.execute line = (s', .ok answer) → Executed s' turns last →
      Executed s (⟨s, line, answer⟩ :: turns) last

namespace Turn

/-- What is shown of a turn in a batch. -/
def inBatch (verbose : Bool) (source : Source) (t : Turn) : List Emission :=
  Emission.notes verbose t.session t.line ++ Emission.lineIfAny (source.shown t.answer)

/-- What is shown of a turn at the prompt, behind the mark. -/
def atPrompt (verbose : Bool) (t : Turn) : List Emission :=
  Emission.notes verbose t.session t.line ++ Emission.lineIfAny t.answer.text

/-- What a script shows of a turn: the same, if the answer is a result, and the notes otherwise. -/
def inScript (verbose : Bool) (t : Turn) : List Emission :=
  if t.answer.isResult then t.atPrompt verbose else Emission.notes verbose t.session t.line

theorem inBatch_script (verbose : Bool) (name : String) (t : Turn) :
    t.inBatch verbose (.script name) = t.inScript verbose := by
  rw [inBatch, inScript, Source.shown]
  split
  · rfl
  · simp [Emission.lineIfAny]

end Turn

/-- Every turn is one. -/
theorem Executed.execute_of_mem {turns : List Turn} (h : Executed s turns last) :
    ∀ t ∈ turns, ∃ s', t.session.execute t.line = (s', .ok t.answer) := by
  induction h with
  | nil s => simp
  | cons hline _ ih => simpa using ⟨⟨_, hline⟩, ih⟩

/-! ## Batches -/

/-- A line that fails in a session. -/
structure Fault where
  /-- the session that the line is for -/
  session : Session
  /-- the line -/
  line : List Char
  /-- why it has no answer -/
  failure : Failure

/-- What is shown of a fault in the line of this number. -/
def Fault.inBatch (verbose : Bool) (source : Source) (number : Nat) (f : Fault) : List Emission :=
  Emission.notes verbose f.session f.line ++ [.err (source.failureText number f.failure ++ "\n")]

/-- Lines executed one after another, up to the first that fails: the turns in front of it, the line
itself if there is one, and the session at the end. -/
inductive Stopped : Session → List (List Char) → List Turn → Option Fault → Session → Prop where
  /-- no line fails -/
  | atEnd {s last : Session} {turns : List Turn} : Executed s turns last →
    Stopped s (turns.map Turn.line) turns none last
  /-- a line fails, and those behind it are not executed -/
  | atFault {s mid last : Session} {turns : List Turn} {line : List Char} {e : Failure} :
    Executed s turns mid → mid.execute line = (last, .error e) → ∀ rest : List (List Char),
      Stopped s (turns.map Turn.line ++ line :: rest) turns (some ⟨mid, line, e⟩) last

variable {turns : List Turn} {fault : Option Fault}

theorem Stopped.cons (hline : s.execute line = (s', .ok answer))
    (h : Stopped s' lines turns fault last) :
    Stopped s (line :: lines) (⟨s, line, answer⟩ :: turns) fault last := by
  cases h with
  | atEnd hturns => exact .atEnd (.cons hline hturns)
  | atFault hturns hfault rest => exact .atFault (.cons hline hturns) hfault rest

/-- Lines are always executed up to some point. -/
theorem exists_stopped (s : Session) (lines : List (List Char)) :
    ∃ turns fault last, Stopped s lines turns fault last := by
  induction lines generalizing s with
  | nil => exact ⟨[], none, s, .atEnd (.nil s)⟩
  | cons line lines ih =>
    rcases hline : s.execute line with ⟨s', e | answer⟩
    · exact ⟨[], some ⟨s, line, e⟩, s', .atFault (.nil s) hline lines⟩
    · obtain ⟨turns, fault, last, hstopped⟩ := ih s'
      exact ⟨⟨s, line, answer⟩ :: turns, fault, last, hstopped.cons hline⟩

/-- A batch goes through turns as long as there are any. -/
theorem runBatch_of_executed (h : Executed s turns s') (rest : List (List Char)) :
    runBatch verbose source number s (turns.map Turn.line ++ rest) =
      let behind := runBatch verbose source (number + turns.length) s' rest
      ⟨behind.session, turns.flatMap (Turn.inBatch verbose source) ++ behind.emissions,
        behind.code⟩ := by
  induction h generalizing number with
  | nil s => rfl
  | @cons s s' last line answer turns hline hrest ih =>
    rw [List.map_cons, List.cons_append, runBatch]
    simp only [hline, ih, List.flatMap_cons, List.length_cons, Turn.inBatch, List.append_assoc]
    rw [Nat.add_right_comm, Nat.add_assoc]

/-- **A batch shows its turns, and the fault if there is one.** -/
theorem runBatch_of_stopped (h : Stopped s lines turns fault last) :
    runBatch verbose source number s lines =
      ⟨last, turns.flatMap (Turn.inBatch verbose source) ++
        fault.elim [] (Fault.inBatch verbose source (number + turns.length)),
        if fault.isSome then 1 else 0⟩ := by
  cases h with
  | atEnd hturns =>
    have hall : runBatch verbose source number s (turns.map Turn.line ++ []) = _ :=
      runBatch_of_executed hturns []
    rw [List.append_nil] at hall
    rw [hall]
    rfl
  | atFault hturns hfault rest =>
    rw [runBatch_of_executed hturns, runBatch]
    simp only [hfault]
    rfl

/-- **A batch that does not fail is made of turns.** -/
theorem exists_executed_of_runBatch (h : (runBatch verbose source number s lines).code = 0) :
    ∃ turns, turns.map Turn.line = lines ∧
      Executed s turns (runBatch verbose source number s lines).session ∧
      (runBatch verbose source number s lines).emissions =
        turns.flatMap (Turn.inBatch verbose source) := by
  obtain ⟨turns, fault, last, hstopped⟩ := exists_stopped s lines
  rw [runBatch_of_stopped hstopped] at h ⊢
  cases hstopped with
  | atEnd hturns => exact ⟨turns, rfl, hturns, List.append_nil _⟩
  | atFault => cases h

end TreeRules
