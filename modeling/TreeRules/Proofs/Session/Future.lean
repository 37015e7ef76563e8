import TreeRules.Proofs.Session.View

/-!
# The future of a session

A session may be asked to execute or to process a line, to obey a command, to set a rule, or to
apply the one it has. Its future is what it replies to such calls, and what can be seen of it after
each of them (`Session.course`).

The view of a session determines its future (`Session.course_eq_of_view`). What the rule carries
beside its contents is of no account: before it is applied, it is given the settings of the session.
As every line is heeded by the view, and lines that name different settings do not interfere, such
lines may come in any order.
-/

namespace TreeRules

variable {s t : Session} {v : Session.View} {c d : Command}

/-! ## Calls and replies -/

/-- What a session can be asked to do. -/
inductive Call where
  /-- execute a line -/
  | execute (line : List Char)
  /-- execute a line, and show a failure like an answer -/
  | process (line : List Char)
  /-- read a command and obey it -/
  | command (line : List Char)
  /-- set the rule that a text holds -/
  | setRule (text : List Char)
  /-- apply the rule to the trees in a text -/
  | simplify (text : List Char)

/-- What a session replies. -/
inductive Reply where
  /-- the answer to a line -/
  | answer (a : Answer)
  /-- a text, if there is anything to say -/
  | said (text : Option String)
  /-- a failure -/
  | failed (e : Failure)

/-- The reply of a call that can fail. -/
def Reply.ofResult {α : Type} (reply : α → Reply) : Except Failure α → Reply
  | .ok a => reply a
  | .error e => .failed e

theorem Rule.render_congr {r r' : Rule} (h : r.content = r'.content) : r.render = r'.render := by
  obtain ⟨hname, hdescription, hpattern, htemplate⟩ := Content.mk.inj h
  simp only [render, header, hname, hdescription, hpattern, htemplate]

namespace Session

/-- Do what is asked: the session afterwards, and its reply. -/
def call (s : Session) : Call → Session × Reply
  | .execute line => ((s.execute line).1, .ofResult .answer (s.execute line).2)
  | .process line => ((s.process line).1, .said (s.process line).2)
  | .command line => ((s.command line).1, .ofResult .said (s.command line).2)
  | .setRule text => ((s.setRule text).1, .ofResult .said (s.setRule text).2)
  | .simplify text => ((s.simplify text).1, .ofResult (.said ·) ((s.simplify text).2.map some))

/-- The session after these calls. -/
def afterCalls (s : Session) (calls : List Call) : Session := calls.foldl (fun s c => (s.call c).1) s

/-- The session after these lines. -/
def afterLines (s : Session) (lines : List (List Char)) : Session :=
  s.afterCalls (lines.map .execute)

/-- The replies to these calls, one after another, each with what can be seen afterwards. -/
def course (s : Session) : List Call → List (Reply × View)
  | [] => []
  | c :: calls => ((s.call c).2, (s.call c).1.view) :: course (s.call c).1 calls

/-! ## Sessions with the same view -/

/-- Sessions with the same view differ in their rules only, and these say the same. -/
theorem eq_of_view (h : s.view = t.view) :
    t = { s with rule := t.rule } ∧ s.rule.map Rule.content = t.rule.map Rule.content := by
  cases s
  cases t
  simp only [view, View.mk.injEq] at h
  obtain ⟨hrule, rfl, rfl, rfl, rfl, rfl⟩ := h
  exact ⟨rfl, hrule⟩

/-- A rule is given everything that it carries beside its contents. -/
theorem configure_congr {r r' : Rule} (s : Session) (h : r.content = r'.content) :
    s.configure r = s.configure r' := by
  obtain ⟨hname, hdescription, hpattern, htemplate⟩ := Rule.Content.mk.inj h
  simp only [configure, hname, hdescription, hpattern, htemplate]

/-- The rules of sessions with the same view: there is none, or they say the same. -/
theorem rule_cases (h : s.view = t.view) :
    (s.rule = none ∧ t.rule = none) ∨
      ∃ r r', s.rule = some r ∧ t.rule = some r' ∧ r.content = r'.content := by
  obtain ⟨-, hrule⟩ := eq_of_view h
  cases hs : s.rule with
  | none =>
    rw [hs, Option.map_none] at hrule
    exact .inl ⟨rfl, Option.map_eq_none_iff.mp hrule.symm⟩
  | some r =>
    rw [hs, Option.map_some] at hrule
    obtain ⟨r', ht, hcontent⟩ := Option.map_eq_some_iff.mp hrule.symm
    exact .inr ⟨r, r', rfl, ht, hcontent.symm⟩

theorem settings_congr (h : s.view = t.view) : s.settings = t.settings := by
  have hrule : s.rule.elim "(no rule)" Rule.render = t.rule.elim "(no rule)" Rule.render := by
    obtain ⟨hs, ht⟩ | ⟨r, r', hs, ht, hcontent⟩ := rule_cases h
    · rw [hs, ht]
    · rw [hs, ht]
      exact Rule.render_congr hcontent
  rw [(eq_of_view h).1]
  simp only [settings, hrule]

theorem obey_congr (h : s.view = t.view) (c : Command) : (s.obey c).2 = (t.obey c).2 := by
  cases c with
  | showSettings => exact congrArg some (settings_congr h)
  | strict switch =>
    rw [(eq_of_view h).1]
    rfl
  | trace switch =>
    rw [(eq_of_view h).1]
    rfl
  | _ => rfl

/-- Of the session, only the settings have a part in what the applied rule makes of trees. -/
theorem outputsOf_rule (s : Session) (x : Option Rule) (r : Rule) (es : List Expr) :
    outputsOf { s with rule := x } r es = s.outputsOf r es := by
  induction es with
  | nil => rfl
  | cons e es ih =>
    rw [outputsOf, outputsOf, ih]
    rfl

theorem simplify_congr (h : s.view = t.view) (text : List Char) :
    (s.simplify text).2 = (t.simplify text).2 := by
  rw [(eq_of_view h).1]
  obtain ⟨hs, ht⟩ | ⟨r, r', hs, ht, hcontent⟩ := rule_cases h
  · simp only [simplify, hs, ht]
  · have hconfigured : configure { s with rule := some r' } r' = s.configure r :=
      (configure_congr s hcontent).symm
    simp only [simplify, hs, ht, hconfigured, simplifyWith, outputsOf_rule]

theorem execute_congr (h : s.view = t.view) (line : List Char) :
    (s.execute line).2 = (t.execute line).2 := by
  rw [execute, execute]
  cases Request.ofLine line with
  | error e => rfl
  | ok request =>
    cases request with
    | nothing => rfl
    | command c =>
      have hsaid := obey_congr h c
      simp only [hsaid]
    | trees text =>
      have hresult := simplify_congr h text
      simp only [hresult]

/-- **Whatever is asked of them, sessions with the same view reply the same** and have the same view
afterwards. -/
theorem call_congr (h : s.view = t.view) (c : Call) :
    (s.call c).2 = (t.call c).2 ∧ (s.call c).1.view = (t.call c).1.view := by
  cases c with
  | execute line =>
    rw [call, call, view_execute, view_execute, execute_congr h, h]
    exact ⟨rfl, rfl⟩
  | process line =>
    rw [call, call, process_snd, process_snd, process_fst, process_fst, view_execute, view_execute,
      execute_congr h, h]
    exact ⟨rfl, rfl⟩
  | command line =>
    rw [call, call, command, command]
    cases Command.ofLine line with
    | error e => exact ⟨rfl, h⟩
    | ok c => exact ⟨congrArg Reply.said (obey_congr h c), by simp only [view_obey, h]⟩
  | setRule text =>
    rw [call, call, setRule, setRule]
    cases Command.setRule text with
    | error e => exact ⟨rfl, h⟩
    | ok c => exact ⟨congrArg Reply.said (obey_congr h c), by simp only [view_obey, h]⟩
  | simplify text =>
    rw [call, call, view_simplify, view_simplify, simplify_congr h]
    exact ⟨rfl, h⟩

/-- So they have the same future. -/
theorem course_congr (h : s.view = t.view) (calls : List Call) :
    s.course calls = t.course calls := by
  induction calls generalizing s t with
  | nil => rfl
  | cons c calls ih =>
    obtain ⟨hreply, hview⟩ := call_congr h c
    rw [course, course, hreply, hview, ih hview]

/-! ## Lines in another order -/

/-- Commands that change different settings can be exchanged. -/
theorem View.obey_comm (v : View) (h : c.sets = d.sets → c.sets = none) :
    (v.obey c).obey d = (v.obey d).obey c := by
  cases c <;> cases d <;> first | rfl | cases h rfl

/-- So can lines that name different settings. -/
theorem View.heed_comm (v : View) {a b : List Char}
    (h : Request.named a = Request.named b → Request.named a = none) :
    (v.heed a).heed b = (v.heed b).heed a := by
  rw [heed, heed, heed, heed]
  split
  · rename_i c hc
    split
    · rename_i d hd
      rw [Request.named_of_ofLine hc, Request.named_of_ofLine hd] at h
      exact v.obey_comm h
    · rfl
  · split <;> rfl

theorem view_afterLines (s : Session) (lines : List (List Char)) :
    (s.afterLines lines).view = lines.foldl View.heed s.view := by
  induction lines generalizing s with
  | nil => rfl
  | cons line lines ih =>
    rw [List.foldl_cons, ← view_execute]
    exact ih (s.execute line).1

/-- **Lines that name different settings may come in any order.** -/
theorem view_afterLines_of_perm {lines lines' : List (List Char)} (hperm : lines.Perm lines')
    (hnamed : ∀ a ∈ lines, ∀ b ∈ lines, a ≠ b →
      Request.named a = Request.named b → Request.named a = none) (h : s.view = t.view) :
    (s.afterLines lines).view = (t.afterLines lines').view := by
  rw [view_afterLines, view_afterLines, h]
  refine hperm.foldl_eq' (fun a ha b hb v => ?_) t.view
  by_cases hab : a = b
  · rw [hab]
  · exact v.heed_comm (hnamed a ha b hb hab)

/-- **The view of a session determines its future**: the replies to all calls, and what can be seen
after each of them. So the limit and the strictness of the rule itself are of no account, and lines
that name different settings can be given in any order, with other lines among them. -/
theorem course_eq_of_view (s t : Session) (h : s.view = t.view) :
    (∀ calls, s.course calls = t.course calls) ∧
      (∀ r limit strict calls, course { s with rule := some r } calls =
        course { t with rule := some { r with limit, strict } } calls) ∧
      ∀ lines lines' : List (List Char), lines.Perm lines' →
        (∀ a ∈ lines, ∀ b ∈ lines, a ≠ b →
          Request.named a = Request.named b → Request.named a = none) →
        ∀ calls, (s.afterLines lines).course calls = (t.afterLines lines').course calls := by
  refine ⟨course_congr h, fun r limit strict => ?_, fun lines lines' hperm hnamed => ?_⟩
  · refine course_congr ?_
    rw [(eq_of_view h).1]
    rfl
  · exact course_congr (view_afterLines_of_perm hperm hnamed h)

/-- Two sessions in which the same has been said in another order. In one of them the rule has been
applied and is strict, in the other it is not yet. The settings that follow, and a tree among them,
are given in two orders as well. -/
theorem course_eq_of_view_after_use :
    let s := fresh.afterLines [":strict on".toList, "x => y".toList, "x".toList]
    let t := fresh.afterLines ["x => y".toList, ":strict on".toList]
    let lines := [":limit 5".toList, ":trace on".toList, "(f x)".toList]
    let lines' := ["(f x)".toList, ":trace on".toList, ":limit 5".toList]
    let calls : List Call := [.execute "(f x)".toList, .process ":show".toList]
    s.view = t.view ∧ s.rule.map (·.strict) = some true ∧ t.rule.map (·.strict) = some false ∧
      lines.Perm lines' ∧
      (∀ a ∈ lines, ∀ b ∈ lines, a ≠ b →
        Request.named a = Request.named b → Request.named a = none) ∧
      s.course calls = t.course calls ∧
      (s.afterLines lines).course calls = (t.afterLines lines').course calls := by
  intro s t lines lines' calls
  have hview : s.view = t.view := by decide +kernel
  have hperm : lines.Perm lines' := by decide +kernel
  have hnamed : ∀ a ∈ lines, ∀ b ∈ lines, a ≠ b →
      Request.named a = Request.named b → Request.named a = none := by decide +kernel
  obtain ⟨hsame, -, horder⟩ := course_eq_of_view s t hview
  exact ⟨hview, by decide +kernel, by decide +kernel, hperm, hnamed, hsame calls,
    horder lines lines' hperm hnamed calls⟩

end Session

end TreeRules
