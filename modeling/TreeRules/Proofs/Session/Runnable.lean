import TreeRules.Proofs.CommandLine.Setup
import TreeRules.Proofs.Expr.Refusal
import TreeRules.Proofs.Replacement.NormalForm
import TreeRules.Proofs.Session.Future

/-!
# Sessions that can be used

A session is fresh, or a command line has set it up; then it is called as often as one likes. In
every session that is reached so, the limit leaves at least one pass: it did at the start, and a
lower one is refused by the only command that changes it. Likewise, a session that starts with a
strategy always has one.

So a line has an answer, or it fails for a reason that lies in the line, in a missing rule, or in a
tree without a fixpoint within the limit of the session (`Failure.Foreseen`). It does not fail for
the settings. The exception is a session without a strategy, which a command line can set up where
the argument parser drops a joined separator (`Reading.takeValue`): there, trees fail for want of a
strategy until a command names it.
-/

namespace TreeRules

variable {line text : List Char} {name : String} {s : Session} {r : Rule} {e : Failure} {n : Int}

/-! ## Failures -/

/-- The failures of a line that do not lie in the settings of the session, given its limit. -/
inductive Failure.Foreseen (limit : Int) : Failure → Prop where
  /-- a command is wrong, or there is no rule to apply -/
  | command (e : CommandError) : Foreseen limit (.command e)
  /-- a text holds no rule -/
  | noRule (text : String) : Foreseen limit (.rule (.noRule text))
  /-- a rule cannot be read, although its trees can start somewhere -/
  | unreadableRule {e : ReadError} : e.kind ≠ .noStart → Foreseen limit (.rule (.unreadable e))
  /-- trees cannot be read, although they can start somewhere -/
  | unreadable {e : ReadError} : e.kind ≠ .noStart → Foreseen limit (.read e)
  /-- a tree has no fixpoint within the limit -/
  | exhausted : Foreseen limit (.fixpoint (.exhausted limit))

namespace Rule

theorem kind_ne_noStart_of_ofLine {err : ReadError} (h : ofLine line = .error err) :
    err.kind ≠ .noStart := by
  rw [ofLine] at h
  split at h
  · cases h
  · rename_i split _
    cases hpattern : Expr.parseChars split.pattern with
    | error err' =>
      rw [hpattern] at h
      cases h
      exact Expr.kind_ne_noStart_of_parseChars hpattern
    | ok pattern =>
      cases htemplate : Expr.parseChars split.template with
      | error err' =>
        rw [hpattern, htemplate] at h
        cases h
        exact Expr.kind_ne_noStart_of_parseChars htemplate
      | ok template =>
        rw [hpattern, htemplate] at h
        cases h

theorem kind_ne_noStart_of_ofLines {err : ReadError} {lines : List (List Char)}
    (h : ofLines lines = .error err) : err.kind ≠ .noStart := by
  induction lines with
  | nil => cases h
  | cons line lines ih =>
    rw [ofLines] at h
    split at h
    · exact ih h
    · exact kind_ne_noStart_of_ofLine h

/-- A text gives no rule because it holds none, or because the first one cannot be read. -/
theorem foreseen_of_ofText {err : RuleError} {text : String} (h : ofText text = .error err) :
    Failure.Foreseen n (.rule err) := by
  rw [ofText] at h
  split at h
  · cases h
  · cases h
    exact .noRule text
  · rename_i hlines
    cases h
    exact .unreadableRule (kind_ne_noStart_of_ofLines hlines)

/-- A rule whose limit leaves a pass fails only where there is no fixpoint within it. -/
theorem eq_exhausted_of_simplify {strategy : Strategy} {tree : Expr} {err : FixpointError}
    (hlimit : 1 ≤ r.limit) (h : r.simplify strategy tree = .error err) :
    err = .exhausted r.limit := by
  cases strategy with
  | once => cases h
  | all => cases h
  | fixpoint =>
    have hnone : ∀ result, r.normalize r.limit tree ≠ .ok result := by
      intro result hresult
      rw [simplify, hresult] at h
      cases h
    rw [simplify, Replacement.normalize_eq_exhausted hlimit hnone] at h
    cases h
    rfl

theorem eq_exhausted_of_trace {strategy : Strategy} {tree : Expr} {err : FixpointError}
    (hlimit : 1 ≤ r.limit) (h : r.trace strategy tree = .error err) :
    err = .exhausted r.limit := by
  cases strategy with
  | once => cases h
  | all => cases h
  | fixpoint =>
    rw [trace, if_neg (by omega)] at h
    split at h
    · cases h
    · cases h
      rfl

end Rule

namespace Command

theorem foreseen_of_setRule (h : setRule text = .error e) : e.Foreseen n := by
  rw [setRule] at h
  split at h
  · cases h
  · rename_i hrule
    cases h
    exact Rule.foreseen_of_ofText hrule

theorem foreseen_of_ofName (h : ofName name text = .error e) : e.Foreseen n := by
  unfold ofName at h
  split at h
  · cases h
  · cases h
  · cases h
  · cases h
  · split at h
    · cases h
      exact .command .missingRule
    · exact foreseen_of_setRule h
  · cases h
  · split at h
    · cases h
    · cases h
      exact .command .unknownStrategy
  · split at h
    · cases h
    · cases h
      exact .command _
  · cases h
  · cases h
  · cases h
    exact .command (.unknown name)

theorem foreseen_of_ofLine (h : ofLine line = .error e) : e.Foreseen n := by
  rw [ofLine] at h
  split at h
  · cases h
    exact .command .noName
  · exact foreseen_of_ofName h

end Command

theorem Request.foreseen_of_ofLine (h : ofLine line = .error e) : e.Foreseen n := by
  rw [ofLine] at h
  split at h
  · cases h
  · cases h
  · exact Command.foreseen_of_ofLine (eq_error_of_map_command h)
  · split at h
    · exact Command.foreseen_of_setRule (eq_error_of_map_command h)
    · cases h

namespace Session

/-- A tree has an output, or there is no fixpoint for it within the limit, or no strategy. -/
theorem foreseen_of_outputOf {tree : Expr} (hlimit : 1 ≤ s.limit)
    (h : s.outputOf (s.configure r) tree = .error e) :
    e.Foreseen s.limit ∨ e = .noStrategy ∧ s.strategy = none := by
  have hconfigured : 1 ≤ (s.configure r).limit := hlimit
  rw [outputOf] at h
  split at h
  · rename_i hnone
    cases h
    exact .inr ⟨rfl, hnone⟩
  · rename_i strategy _
    split at h
    · cases htrace : (s.configure r).trace strategy tree with
      | ok t =>
        rw [htrace] at h
        cases h
      | error err =>
        rw [htrace] at h
        cases h
        rw [Rule.eq_exhausted_of_trace hconfigured htrace]
        exact .inl .exhausted
    · cases hresult : (s.configure r).simplify strategy tree with
      | ok result =>
        rw [hresult] at h
        cases h
      | error err =>
        rw [hresult] at h
        cases h
        rw [Rule.eq_exhausted_of_simplify hconfigured hresult]
        exact .inl .exhausted

theorem foreseen_of_outputsOf {trees : List Expr} (hlimit : 1 ≤ s.limit)
    (h : s.outputsOf (s.configure r) trees = .error e) :
    e.Foreseen s.limit ∨ e = .noStrategy ∧ s.strategy = none := by
  induction trees with
  | nil => cases h
  | cons tree trees ih =>
    rw [outputsOf] at h
    split at h
    · rename_i houtput
      cases h
      exact foreseen_of_outputOf hlimit houtput
    · cases hrest : s.outputsOf (s.configure r) trees with
      | ok texts =>
        rw [hrest] at h
        cases h
      | error e' =>
        rw [hrest] at h
        cases h
        exact ih hrest

theorem foreseen_of_simplify (hlimit : 1 ≤ s.limit) (h : (s.simplify text).2 = .error e) :
    e.Foreseen s.limit ∨ e = .noStrategy ∧ s.strategy = none := by
  cases hrule : s.rule with
  | none =>
    simp only [simplify, hrule] at h
    cases h
    exact .inl (.command .noRuleSet)
  | some r =>
    simp only [simplify, hrule, simplifyWith] at h
    split at h
    · rename_i hread
      cases h
      exact .inl (.unreadable (Expr.kind_ne_noStart_of_parseAllChars hread))
    · rename_i trees _
      cases houtputs : s.outputsOf (s.configure r) trees with
      | ok texts =>
        rw [houtputs] at h
        cases h
      | error e' =>
        rw [houtputs] at h
        cases h
        exact foreseen_of_outputsOf hlimit houtputs

/-- **All that a line can fail for**, where the limit leaves a pass. -/
theorem foreseen_of_execute (hlimit : 1 ≤ s.limit) (h : (s.execute line).2 = .error e) :
    e.Foreseen s.limit ∨ e = .noStrategy ∧ s.strategy = none := by
  rw [execute] at h
  cases hread : Request.ofLine line with
  | error e' =>
    rw [hread] at h
    cases h
    exact .inl (Request.foreseen_of_ofLine hread)
  | ok request =>
    rw [hread] at h
    cases request with
    | nothing => cases h
    | command c => cases h
    | trees text =>
      cases hresult : (s.simplify text).2 with
      | ok output =>
        simp only [hresult] at h
        cases h
      | error e' =>
        simp only [hresult] at h
        cases h
        exact foreseen_of_simplify hlimit hresult

end Session

/-! ## What calls keep -/

/-- A command keeps a pass possible. -/
def Command.LeavesPass : Command → Prop
  | .limit n => 1 ≤ n
  | _ => True

namespace Command

/-- A limit that is read leaves a pass. -/
theorem one_le_of_readLimit (h : readLimit text = .ok n) : 1 ≤ n := by
  rw [readLimit] at h
  split at h
  · cases h
  · split at h
    · cases h
    · cases h
      omega

theorem leavesPass_of_named {c : Command} (h : Named text name c) : c.LeavesPass := by
  cases h with
  | limit hn => exact one_le_of_readLimit hn
  | _ => trivial

theorem leavesPass_of_setRule {c : Command} (h : setRule text = .ok c) : c.LeavesPass := by
  obtain ⟨r, -, rfl⟩ := exists_rule_of_setRule h
  trivial

theorem leavesPass_of_ofLine {c : Command} (h : ofLine line = .ok c) : c.LeavesPass := by
  rw [ofLine] at h
  split at h
  · cases h
  · exact leavesPass_of_named (named_of_ofName h)

end Command

theorem Request.leavesPass_of_ofLine {c : Command} (h : ofLine line = .ok (.command c)) :
    c.LeavesPass := by
  cases read_of_ofLine h with
  | command _ _ hnamed => exact Command.leavesPass_of_named hnamed
  | rule => trivial

namespace Session

variable {v : View}

/-- A line is heeded like a command that keeps a pass possible, or not at all. -/
theorem View.heed_cases (v : View) (line : List Char) :
    v.heed line = v ∨ ∃ c : Command, c.LeavesPass ∧ v.heed line = v.obey c := by
  unfold heed
  split
  · rename_i c hread
    exact .inr ⟨c, Request.leavesPass_of_ofLine hread, rfl⟩
  · exact .inl rfl

/-- **What a call can do**: obey a command that keeps a pass possible, or nothing that can be
seen. -/
theorem view_call_cases (s : Session) (c : Call) :
    (s.call c).1.view = s.view ∨
      ∃ c' : Command, c'.LeavesPass ∧ (s.call c).1.view = s.view.obey c' := by
  cases c with
  | execute line =>
    rw [call, view_execute]
    exact s.view.heed_cases line
  | process line =>
    rw [call, process_fst, view_execute]
    exact s.view.heed_cases line
  | command line =>
    rw [call, command]
    cases hread : Command.ofLine line with
    | error e => exact .inl rfl
    | ok c => exact .inr ⟨c, Command.leavesPass_of_ofLine hread, view_obey s c⟩
  | setRule text =>
    rw [call, setRule]
    cases hread : Command.setRule text with
    | error e => exact .inl rfl
    | ok c => exact .inr ⟨c, Command.leavesPass_of_setRule hread, view_obey s c⟩
  | simplify text => exact .inl (view_simplify s text)

/-- A pass stays possible. -/
theorem one_le_limit_call (hlimit : 1 ≤ s.limit) (c : Call) : 1 ≤ (s.call c).1.limit := by
  have hview : (s.call c).1.limit = (s.call c).1.view.limit := rfl
  rw [hview]
  obtain hsame | ⟨c', hpass, hobeyed⟩ := view_call_cases s c
  · rw [hsame]
    exact hlimit
  · rw [hobeyed]
    cases c' with
    | limit n => exact hpass
    | _ => exact hlimit

/-- A strategy is replaced, but never taken away. -/
theorem strategy_call (hstrategy : s.strategy ≠ none) (c : Call) :
    (s.call c).1.strategy ≠ none := by
  have hview : (s.call c).1.strategy = (s.call c).1.view.strategy := rfl
  rw [hview]
  obtain hsame | ⟨c', -, hobeyed⟩ := view_call_cases s c
  · rw [hsame]
    exact hstrategy
  · rw [hobeyed]
    cases c' with
    | strategy strategy => rintro ⟨⟩
    | _ => exact hstrategy

theorem one_le_limit_afterCalls (hlimit : 1 ≤ s.limit) (calls : List Call) :
    1 ≤ (s.afterCalls calls).limit := by
  induction calls generalizing s with
  | nil => exact hlimit
  | cons c calls ih => exact ih (one_le_limit_call hlimit c)

theorem strategy_afterCalls (hstrategy : s.strategy ≠ none) (calls : List Call) :
    (s.afterCalls calls).strategy ≠ none := by
  induction calls generalizing s with
  | nil => exact hstrategy
  | cons c calls ih => exact ih (strategy_call hstrategy c)

end Session

/-! ## Reachable sessions -/

/-- Where a session comes from. -/
inductive Origin where
  /-- nothing has been said in it yet -/
  | fresh
  /-- these words of a command line -/
  | commandLine (words : List String)

namespace Origin

/-- The session that there is at first, unless the command line leads to none. -/
def session? : Origin → Option Session
  | fresh => some .fresh
  | commandLine words => (Plan.ofWords words).session?

/-- Is the strategy left alone, so that there is one at first? -/
def keepsStrategy : Origin → Bool
  | fresh => true
  | commandLine words => words.all fun word => !Opt.strategy.joinsSeparator word

theorem one_le_limit {origin : Origin} (h : origin.session? = some s) : 1 ≤ s.limit := by
  cases origin with
  | fresh =>
    cases h
    decide
  | commandLine words => exact Plan.one_le_limit_of_session? h

theorem strategy_ne_none {origin : Origin} (h : origin.session? = some s)
    (hkeeps : origin.keepsStrategy = true) : s.strategy ≠ none := by
  cases origin with
  | fresh =>
    cases h
    rintro ⟨⟩
  | commandLine words =>
    refine Plan.strategy_ne_none_of_session? h fun word hword => ?_
    simpa using List.all_eq_true.mp hkeeps word hword

end Origin

namespace Session

/-- **Every session that is reached can be used.** Its limit leaves a pass, and it has a strategy,
unless the command line that it comes from takes the strategy away. Every line has an answer or
fails as foreseen, or, if there is no strategy, for want of one; and a line that is processed always
has a text that tells which. -/
theorem reachable_usable {origin : Origin} {s : Session} (h : origin.session? = some s)
    (calls : List Call) :
    1 ≤ (s.afterCalls calls).limit ∧
      (origin.keepsStrategy = true → (s.afterCalls calls).strategy ≠ none) ∧
      ∀ line : List Char,
        (∃ answer, ((s.afterCalls calls).execute line).2 = .ok answer ∧
          ((s.afterCalls calls).process line).2 = answer.text) ∨
        ∃ e : Failure, ((s.afterCalls calls).execute line).2 = .error e ∧
          ((s.afterCalls calls).process line).2 = some (errorText e) ∧
          (e.Foreseen (s.afterCalls calls).limit ∨
            e = .noStrategy ∧ (s.afterCalls calls).strategy = none) := by
  have hlimit := one_le_limit_afterCalls (Origin.one_le_limit h) calls
  refine ⟨hlimit, fun hkeeps => ?_, fun line => ?_⟩
  · exact strategy_afterCalls (Origin.strategy_ne_none h hkeeps) calls
  · have hsaid := process_snd (s.afterCalls calls) line
    cases hresult : ((s.afterCalls calls).execute line).2 with
    | ok answer =>
      rw [hresult] at hsaid
      exact .inl ⟨answer, rfl, hsaid⟩
    | error e =>
      rw [hresult] at hsaid
      exact .inr ⟨e, rfl, hsaid, foreseen_of_execute hlimit hresult⟩

/-- A command line asks for a strategy and a limit, and later calls for others. One of these is
refused, and a tree has no fixpoint within the other. -/
theorem reachable_usable_after_refusal :
    let origin := Origin.commandLine ["-s", "once", "-n5", "--rule=x => x", "-e", "x"]
    let calls : List Call :=
      [.process ":strategy fixpoint".toList, .command ":limit 3".toList, .execute ":limit 0".toList]
    let s := origin.session?.getD .fresh
    let line := "(f x)".toList
    origin.session? = some s ∧ origin.keepsStrategy = true ∧ 1 ≤ (s.afterCalls calls).limit ∧
      (s.afterCalls calls).strategy ≠ none ∧ ((s.afterCalls calls).execute line).2.isOk = false ∧
      ∃ e : Failure, ((s.afterCalls calls).execute line).2 = .error e ∧ e.Foreseen 3 := by
  intro origin calls s line
  have hready : origin.session?.isSome = true := by decide +kernel
  have hs : origin.session? = some s := by
    obtain ⟨s', hs'⟩ := Option.isSome_iff_exists.mp hready
    rw [hs', Option.some_inj]
    exact (Option.getD_eq_iff.mpr (.inl hs')).symm
  have hkeeps : origin.keepsStrategy = true := by decide +kernel
  have hfailed : ((s.afterCalls calls).execute line).2.isOk = false := by decide +kernel
  have hthree : (s.afterCalls calls).limit = 3 := by decide +kernel
  obtain ⟨hlimit, hstrategy, hlines⟩ := reachable_usable hs calls
  refine ⟨hs, hkeeps, hlimit, hstrategy hkeeps, hfailed, ?_⟩
  obtain ⟨answer, hanswer, -⟩ | ⟨e, he, -, hforeseen⟩ := hlines line
  · rw [hanswer] at hfailed
    cases hfailed
  · obtain hforeseen | ⟨-, hnone⟩ := hforeseen
    · rw [hthree] at hforeseen
      exact ⟨e, he, hforeseen⟩
    · exact absurd hnone (hstrategy hkeeps)

/-- **A session can start without a strategy**, and then no tree has a result. This takes an
argument parser that drops a separator joined to an option; of the one in the standard library only
particular older releases do. The option is there to choose one of three strategies, and any other
name for it is refused. -/
theorem starts_without_strategy :
    let origin := Origin.commandLine ["-r", "x => y", "-s--", "-e", "x"]
    let s := origin.session?.getD .fresh
    origin.session?.isSome = true ∧ s.strategy = none ∧
      (s.process "x".toList).2 =
        some "Error: Unknown strategy: []. Valid options: once, all, fixpoint" ∧
      (Origin.commandLine ["-r", "x => y", "-s", "-", "-e", "x"]).session?.isSome = false := by
  decide +kernel

end Session

end TreeRules
