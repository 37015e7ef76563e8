import TreeRules.Proofs.Session.OneLine

/-!
# What can be seen of a session

A session has a rule and settings, and its rule has a limit and a strictness of its own. These two
are the session's only from the moment that the rule is applied: before, they are what rules start
with, and after a change of the settings they are out of date. Whoever uses the session does not see
them. The `View` of a session is all the rest.

A line is heeded by the view alone (`view_execute`): a command is obeyed, and nothing else changes
anything. So a line changes at most the setting that it names, and none if it fails
(`execute_keeps_unnamed`), even where rewriting has begun and the rule has been given its limit.
-/

namespace TreeRules

open Text

variable {c : Char} {cs line : List Char} {name : String} {s : Session}

/-! ## Views -/

/-- What a rule says, apart from its limit and its strictness. -/
structure Rule.Content where
  /-- what the rule is called, if it is called anything -/
  name : Option String
  /-- what the rule does, in words -/
  description : Option String
  /-- what is looked for -/
  pattern : Expr
  /-- what takes its place -/
  template : Expr
deriving DecidableEq

/-- What this rule says. -/
def Rule.content (r : Rule) : Content := ⟨r.name, r.description, r.pattern, r.template⟩

namespace Session

/-- What can be seen of a session. -/
structure View where
  /-- what the rule says, once one has been set -/
  rule : Option Rule.Content
  /-- how the rule is applied, if that is known -/
  strategy : Option Strategy
  /-- the most passes to a fixpoint -/
  limit : Int
  /-- must repeated variables find equal values? -/
  strict : Bool
  /-- are all passes shown? -/
  tracing : Bool
  /-- are further lines wanted? -/
  running : Bool
deriving DecidableEq

/-- What can be seen of this session. -/
def view (s : Session) : View :=
  ⟨s.rule.map Rule.content, s.strategy, s.limit, s.strict, s.tracing, s.running⟩

namespace View

/-- Obey a command. -/
def obey (v : View) : Command → View
  | .help => v
  | .quit => { v with running := false }
  | .rule r => { v with rule := some r.content }
  | .showSettings => v
  | .strategy strategy => { v with strategy := some strategy }
  | .limit limit => { v with limit }
  | .strict switch => { v with strict := switch.apply v.strict }
  | .trace switch => { v with tracing := switch.apply v.tracing }

/-- Heed a line: obey the command that it is, if it is one. -/
def heed (v : View) (line : List Char) : View :=
  match Request.ofLine line with
  | .ok (.command c) => v.obey c
  | _ => v

end View

theorem view_obey (s : Session) (c : Command) : (s.obey c).1.view = s.view.obey c := by
  cases c <;> rfl

/-- The limit and the strictness that a rule is given cannot be seen. -/
theorem view_simplify (s : Session) (text : List Char) : (s.simplify text).1.view = s.view := by
  cases hrule : s.rule with
  | none => simp only [simplify, hrule]
  | some r =>
    simp only [simplify, hrule, view]
    rfl

/-- **What a line does to a session can be told from its view.** -/
theorem view_execute (s : Session) (line : List Char) :
    (s.execute line).1.view = s.view.heed line := by
  rw [execute, View.heed]
  cases Request.ofLine line with
  | error e => rfl
  | ok request =>
    cases request with
    | nothing => rfl
    | command c => exact view_obey s c
    | trees text => exact view_simplify s text

/-- What fails is not heeded. -/
theorem view_execute_of_error {e : Failure} (h : (s.execute line).2 = .error e) :
    (s.execute line).1.view = s.view := by
  rw [view_execute, View.heed]
  cases hread : Request.ofLine line with
  | error e => rfl
  | ok request =>
    cases request with
    | nothing => rfl
    | command c =>
      rw [execute, hread] at h
      cases h
    | trees text => rfl

end Session

/-! ## The setting that a line names -/

/-- What can be set in a session. -/
inductive Setting where
  /-- the rule -/
  | rule
  /-- how the rule is applied -/
  | strategy
  /-- the most passes to a fixpoint -/
  | limit
  /-- strict matching -/
  | strict
  /-- tracing -/
  | tracing
  /-- whether further lines are wanted -/
  | running
deriving DecidableEq

/-- The setting that a command of this name, in lower case, is about. -/
def Setting.ofName? : String → Option Setting
  | "rule" => some .rule
  | "strategy" => some .strategy
  | "limit" => some .limit
  | "strict" => some .strict
  | "trace" => some .tracing
  | "quit" | "exit" | "q" => some .running
  | _ => none

/-- The setting that a line names. Blank lines, comments and trees name none, and a rule names the
rule. -/
def Request.named (line : List Char) : Option Setting :=
  match trim line with
  | [] => none
  | '#' :: _ => none
  | ':' :: rest => (firstWord? rest).bind fun w => Setting.ofName? (String.ofList (lower w.1))
  | cs => if isRuleLine cs then some .rule else none

/-- The setting that a command changes. -/
def Command.sets : Command → Option Setting
  | .help => none
  | .quit => some .running
  | .rule _ => some .rule
  | .showSettings => none
  | .strategy _ => some .strategy
  | .limit _ => some .limit
  | .strict _ => some .strict
  | .trace _ => some .tracing

namespace Command

/-- A command changes the setting that its name is about. -/
theorem sets_of_named {arg : List Char} {c : Command} (h : Named arg name c) :
    c.sets = Setting.ofName? name := by
  cases h with
  | quit hname =>
    simp only [List.mem_cons, List.not_mem_nil, or_false] at hname
    rcases hname with rfl | rfl | rfl <;> rfl
  | _ => rfl

end Command

namespace Request

theorem named_text (h : trim line = c :: cs) (hcomment : c ≠ '#') (hcommand : c ≠ ':') :
    named line = if isRuleLine (c :: cs) then some .rule else none := by
  unfold named
  rw [h]
  split
  · rename_i heq
    cases heq
  · rename_i heq
    exact absurd (List.cons.inj heq).1 hcomment
  · rename_i heq
    exact absurd (List.cons.inj heq).1 hcommand
  · rfl

/-- A line names the setting that its command changes. -/
theorem named_of_ofLine {command' : Command} (h : ofLine line = .ok (.command command')) :
    named line = command'.sets := by
  cases read_of_ofLine h with
  | command htrim hword hnamed =>
    rw [named, htrim, Command.sets_of_named hnamed]
    simp only [hword, Option.bind_some]
  | rule htrim hcomment hcommand hrule _ =>
    rw [named_text htrim hcomment hcommand, if_pos hrule]
    rfl

end Request

/-! ## What a line keeps -/

namespace Session

/-- Two views agree, but perhaps in one setting. -/
structure View.AgreesExcept (x : Option Setting) (v w : View) : Prop where
  /-- the rules say the same -/
  rule : x ≠ some .rule → v.rule = w.rule
  /-- they are applied in the same way -/
  strategy : x ≠ some .strategy → v.strategy = w.strategy
  /-- the limits are equal -/
  limit : x ≠ some .limit → v.limit = w.limit
  /-- both match strictly, or neither does -/
  strict : x ≠ some .strict → v.strict = w.strict
  /-- both trace, or neither does -/
  tracing : x ≠ some .tracing → v.tracing = w.tracing
  /-- both want further lines, or neither does -/
  running : x ≠ some .running → v.running = w.running

namespace View

variable {v w : View}

theorem AgreesExcept.refl (x : Option Setting) (v : View) : v.AgreesExcept x v :=
  ⟨fun _ => rfl, fun _ => rfl, fun _ => rfl, fun _ => rfl, fun _ => rfl, fun _ => rfl⟩

/-- Views that agree in everything are equal. -/
theorem AgreesExcept.eq (h : v.AgreesExcept none w) : v = w := by
  cases v
  cases w
  rw [mk.injEq]
  exact ⟨h.rule nofun, h.strategy nofun, h.limit nofun, h.strict nofun, h.tracing nofun,
    h.running nofun⟩

/-- A command changes one setting at most. -/
theorem agreesExcept_obey (v : View) (c : Command) : (v.obey c).AgreesExcept c.sets v := by
  cases c <;> constructor <;> intro hx <;> first | rfl | exact absurd rfl hx

/-- A line changes what it names at most. -/
theorem agreesExcept_heed (v : View) (line : List Char) :
    (v.heed line).AgreesExcept (Request.named line) v := by
  unfold heed
  split
  · rename_i c hread
    rw [Request.named_of_ofLine hread]
    exact v.agreesExcept_obey c
  · exact .refl _ v

end View

/-- **A line keeps every setting that it does not name, and all of them if it fails.** This is so
whether the line is executed or processed; where it fails, the answer is the text of the failure. -/
theorem execute_keeps_unnamed (s : Session) (line : List Char) :
    (s.process line).1 = (s.execute line).1 ∧
      (∀ e, (s.execute line).2 = .error e →
        (s.process line).2 = some (errorText e) ∧ (s.execute line).1.view = s.view) ∧
      (Request.named line = none → (s.execute line).1.view = s.view) ∧
      (s.execute line).1.view.AgreesExcept (Request.named line) s.view := by
  have hagrees : (s.execute line).1.view.AgreesExcept (Request.named line) s.view := by
    rw [view_execute]
    exact s.view.agreesExcept_heed line
  refine ⟨process_fst s line, fun e he => ⟨?_, view_execute_of_error he⟩, fun hnone => ?_, hagrees⟩
  · rw [process_snd, he]
  · rw [hnone] at hagrees
    exact hagrees.eq

/-- The second of two trees has no fixpoint. The line fails after the first has been rewritten and
the rule has been given the session's limit, and nothing of this can be seen. -/
theorem execute_keeps_unnamed_without_fixpoint :
    let s := ((fresh.execute ":limit 2".toList).1.execute "x => x".toList).1
    let line := "y x".toList
    Request.named line = none ∧ (s.execute line).2.isOk = false ∧
      (s.process line).2 = some "Error: rewrite did not converge within 2 iterations" ∧
      s.rule.map Rule.limit = some 1000 ∧ (s.execute line).1.rule.map Rule.limit = some 2 ∧
      (s.execute line).1.view = s.view := by
  intro s line
  have hfailed : (s.execute line).2.isOk = false := by decide +kernel
  obtain ⟨-, herror, -, -⟩ := execute_keeps_unnamed s line
  have hview : (s.execute line).1.view = s.view := by
    cases hresult : (s.execute line).2 with
    | ok answer =>
      rw [hresult] at hfailed
      cases hfailed
    | error e => exact (herror e hresult).2
  exact ⟨by decide +kernel, hfailed, by decide +kernel, by decide +kernel, by decide +kernel, hview⟩

end Session

end TreeRules
