import TreeRules.CommandLine.Run
import TreeRules.Proofs.Session.OneLine

/-!
# Sessions set up by a command line

A command line that is accepted sets up a session, with the settings that it asks for. Its limit
leaves at least one pass, since a lower one is refused. Its strategy is one of the three, since
another name is refused — with one exception: a word in which the separator `--` is joined to the
option takes the strategy away, and that counts as no fault of the command line
(`Plan.one_le_limit_of_session?`, `Plan.strategy_ne_none_of_session?`). The exception comes from
the releases of the argument parser that drop a joined separator (`Reading.takeValue`).

Only words in front of the separator name options. Each is classified by itself (`Classified`), and
an option's value in the next word is a plain word, which the separator is not.
-/

namespace TreeRules

variable {words : List String} {classified : List (String × WordClass)} {uses : List Usage}
  {args : Arguments} {r r' : Reading} {o : Opt} {value : List Char} {s : Session}

/-- Does the word join the separator to this option, so that the option's setting is taken away? -/
def Opt.joinsSeparator (o : Opt) (word : String) : Bool :=
  match WordClass.ofChars word.toList with
  | .error _ => false
  | .ok c =>
    match WordUse.ofWord word.toList c with
    | .error _ => false
    | .ok use => use.uses.any fun
      | .value o' value => o' == o && value == ['-', '-']
      | _ => false

/-- What a word is used for, if it does not join the separator to the option. -/
theorem ne_separator_of_joinsSeparator {word : String} {c : WordClass} {use : WordUse}
    (h : o.joinsSeparator word = false) (hc : WordClass.ofChars word.toList = .ok c)
    (huse : WordUse.ofWord word.toList c = .ok use) (hmem : .value o value ∈ use.uses) :
    value ≠ ['-', '-'] := by
  rintro rfl
  simp only [Opt.joinsSeparator, hc, huse, List.any_eq_false] at h
  exact h _ hmem (by simp)

/-! ## Classified words -/

/-- Words as they are classified: each by itself up to the separator, and all behind it as plain
ones. -/
inductive Classified : List (String × WordClass) → Prop where
  /-- there is no further word -/
  | nil : Classified []
  /-- the separator, and the words behind it -/
  | separator (words : List String) : Classified (("--", .separator) :: words.map (·, .plain))
  /-- a word in front of the separator -/
  | cons {word : String} {c : WordClass} {rest : List (String × WordClass)} : word ≠ "--" →
    WordClass.ofChars word.toList = .ok c → Classified rest → Classified ((word, c) :: rest)

/-- What is classified by itself stands in front of the separator. -/
theorem Classified.of_cons {word : String} {c : WordClass} {rest : List (String × WordClass)}
    (h : Classified ((word, c) :: rest)) (hc : c ≠ .separator) :
    word ≠ "--" ∧ WordClass.ofChars word.toList = .ok c ∧ Classified rest := by
  cases h with
  | separator => exact absurd rfl hc
  | cons hword hclass hrest => exact ⟨hword, hclass, hrest⟩

theorem classified_of_classifyWords (h : classifyWords words = .ok classified) :
    Classified classified ∧ classified.map Prod.fst = words := by
  induction words generalizing classified with
  | nil =>
    cases h
    exact ⟨.nil, rfl⟩
  | cons word words ih =>
    rw [classifyWords] at h
    split at h
    · rename_i hword
      cases h
      exact ⟨hword ▸ .separator words, by simp [Function.comp_def]⟩
    · rename_i hword
      split at h
      · cases h
      · rename_i c hc
        cases hrest : classifyWords words with
        | error e =>
          rw [hrest] at h
          cases h
        | ok rest =>
          rw [hrest] at h
          cases h
          obtain ⟨hclassified, rfl⟩ := ih hrest
          exact ⟨.cons hword hc hclassified, rfl⟩

/-! ## Reading words -/

namespace Reading

theorem strategy_takePlain (r : Reading) (word : String) :
    (r.takePlain word).args.strategy = r.args.strategy := by
  rw [takePlain]
  split <;> rfl

theorem strategy_takeSeparator (r : Reading) :
    r.takeSeparator.args.strategy = r.args.strategy := by
  rw [takeSeparator]
  split
  · rfl
  · split <;> rfl

theorem strategy_takeFlag (h : r.takeFlag o = .inr r') : r'.args.strategy = r.args.strategy := by
  cases o <;> cases h <;> rfl

/-- A value that the strategy option can have is a strategy. -/
theorem strategy_takeValue (h : r.takeValue o value = .ok r') (hr : r.args.strategy ≠ none)
    (hvalue : o = .strategy → value ≠ ['-', '-']) : r'.args.strategy ≠ none := by
  rw [takeValue] at h
  split at h
  · rename_i hseparator
    cases h
    cases o with
    | strategy => exact absurd hseparator (hvalue rfl)
    | _ => exact hr
  · cases o with
    | strategy =>
      simp only [takeText] at h
      split at h
      · cases h
        rintro ⟨⟩
      · cases h
    | maxIterations =>
      simp only [takeText] at h
      split at h
      · cases h
        exact hr
      · cases h
    | rule =>
      cases h
      exact hr
    | expr =>
      cases h
      exact hr
    | _ => cases h

theorem strategy_takeUses (h : r.takeUses uses = .ok (.inr r')) (hr : r.args.strategy ≠ none)
    (huses : ∀ value, .value .strategy value ∈ uses → value ≠ ['-', '-']) :
    r'.args.strategy ≠ none := by
  fun_induction takeUses r uses with
  | case1 r =>
    cases h
    exact hr
  | case2 => cases h
  | case3 r o rest r₁ hflag ih =>
    refine ih h ?_ fun value hvalue => huses value (List.mem_cons_of_mem _ hvalue)
    rw [strategy_takeFlag hflag]
    exact hr
  | case4 => cases h
  | case5 r o value rest r₁ hvalue ih =>
    refine ih h (strategy_takeValue hvalue hr ?_) fun value hvalue =>
      huses value (List.mem_cons_of_mem _ hvalue)
    rintro rfl
    exact huses value List.mem_cons_self
  | case6 r word rest ih =>
    exact ih h hr fun value hvalue => huses value (List.mem_cons_of_mem _ hvalue)

/-- An option ends the reading only to ask for the help or the version. -/
theorem ne_run_of_takeUses {request : CommandRequest} (h : r.takeUses uses = .ok (.inl request)) :
    request ≠ .run args := by
  fun_induction takeUses r uses with
  | case1 => cases h
  | case2 r o rest request' hflag =>
    cases h
    cases o <;> cases hflag <;> rintro ⟨⟩
  | case3 r o rest r₁ hflag ih => exact ih h
  | case4 => cases h
  | case5 r o value rest r₁ hvalue ih => exact ih h
  | case6 r word rest ih => exact ih h

/-- Plain words have nothing to do with the strategy. -/
theorem strategy_takeWords_plain
    (h : r.takeWords (words.map (·, .plain)) = .ok (.run args)) :
    args.strategy = r.args.strategy := by
  induction words generalizing r with
  | nil =>
    rw [List.map_nil, takeWords] at h
    split at h
    · cases h
      rfl
    · cases h
  | cons word words ih =>
    rw [List.map_cons, takeWords] at h
    rw [ih h, strategy_takePlain]

/-- **A strategy is kept by every word** that does not join the separator to the option. -/
theorem strategy_takeWords (h : r.takeWords classified = .ok (.run args))
    (hr : r.args.strategy ≠ none) (hclassified : Classified classified)
    (hjoins : ∀ p ∈ classified, Opt.strategy.joinsSeparator p.1 = false) :
    args.strategy ≠ none := by
  fun_induction takeWords r classified with
  | case1 r =>
    cases h
    exact hr
  | case2 => cases h
  | case3 r word rest ih =>
    refine ih h ?_ (hclassified.of_cons nofun).2.2 (List.forall_mem_cons.mp hjoins).2
    rw [strategy_takePlain]
    exact hr
  | case4 r word rest ih =>
    cases hclassified with
    | separator words =>
      rw [strategy_takeWords_plain h, strategy_takeSeparator]
      exact hr
    | cons _ _ hrest =>
      refine ih h ?_ hrest (List.forall_mem_cons.mp hjoins).2
      rw [strategy_takeSeparator]
      exact hr
  | case5 => cases h
  | case6 => cases h
  | case7 r word c rest hplain hseparator uses huse request huses =>
    cases h
    exact absurd rfl (ne_run_of_takeUses huses)
  | case8 r word c rest hplain hseparator uses huse r₁ huses ih =>
    rw [List.forall_mem_cons] at hjoins
    obtain ⟨-, hc, hrest⟩ := hclassified.of_cons hseparator
    refine ih h (strategy_takeUses huses hr fun value hvalue => ?_) hrest hjoins.2
    exact ne_separator_of_joinsSeparator hjoins.1 hc huse hvalue
  | case9 => cases h
  | case10 r word c hplain hseparator uses o huse value rest request huses =>
    cases h
    exact absurd rfl (ne_run_of_takeUses huses)
  | case11 r word c hplain hseparator uses o huse value rest r₁ huses ih =>
    rw [List.forall_mem_cons, List.forall_mem_cons] at hjoins
    obtain ⟨-, hc, hnext⟩ := hclassified.of_cons hseparator
    -- the next word is the value, and it is not the separator
    obtain ⟨hvalue, -, hrest⟩ := hnext.of_cons nofun
    refine ih h (strategy_takeUses huses hr fun value' hmem => ?_) hrest hjoins.2.2
    rw [List.mem_append, List.mem_singleton] at hmem
    rcases hmem with hmem | hmem
    · exact ne_separator_of_joinsSeparator hjoins.1 hc huse hmem
    · cases hmem
      exact fun heq => hvalue (String.toList_inj.mp heq)
  | case12 => cases h

end Reading

/-! ## Arguments -/

namespace CommandRequest

/-- Arguments that are accepted leave a pass, if they have a limit at all. -/
theorem one_le_limit_of_ofWords {limit : Int} (h : ofWords words = .ok (.run args))
    (hlimit : args.limit = some limit) : 1 ≤ limit := by
  rw [ofWords] at h
  split at h
  · cases h
  · split at h
    · cases h
    · rename_i request _
      cases request with
      | help => cases h
      | version => cases h
      | run args' =>
        rw [checkLimit] at h
        split at h
        · cases h
        · rename_i hfine
          cases h
          rw [hlimit, Option.any_some, decide_eq_true_eq] at hfine
          omega

/-- Arguments that are accepted have a strategy, unless a word takes it away. -/
theorem strategy_ne_none_of_ofWords (h : ofWords words = .ok (.run args))
    (hjoins : ∀ word ∈ words, Opt.strategy.joinsSeparator word = false) :
    args.strategy ≠ none := by
  rw [ofWords] at h
  split at h
  · cases h
  · rename_i classified hclassify
    obtain ⟨hclassified, rfl⟩ := classified_of_classifyWords hclassify
    rw [List.forall_mem_map] at hjoins
    split at h
    · cases h
    · rename_i request hrequest
      cases request with
      | help => cases h
      | version => cases h
      | run args' =>
        rw [checkLimit] at h
        split at h
        · cases h
        · cases h
          exact Reading.strategy_takeWords hrequest nofun hclassified hjoins

end CommandRequest

/-! ## Plans -/

/-- Setting a rule changes nothing but the rule. -/
theorem Session.setRule_cases (s : Session) (text : List Char) :
    (s.setRule text).1 = s ∨ ∃ r, (s.setRule text).1 = { s with rule := some r } := by
  rw [setRule, Command.setRule]
  cases Rule.ofText (String.ofList text) with
  | ok r => exact .inr ⟨r, rfl⟩
  | error e => exact .inl rfl

namespace Plan

/-- The session that is ready when a plan is made. -/
def session? : Plan → Option Session
  | .script _ _ s => some s
  | .line _ _ s => some s
  | .input _ s => some s
  | _ => none

/-- A session that is ready has the settings that are asked for. -/
theorem settings_of_session {limit : Int} (h : session args limit = .ok s) :
    s.strategy = args.strategy ∧ s.limit = limit := by
  rw [session] at h
  split at h
  · cases h
    exact ⟨rfl, rfl⟩
  · rename_i text _
    split at h
    · rename_i s' said hset
      cases h
      have hs : s = (Session.setRule _ text.toList).1 := congrArg Prod.fst hset.symm
      obtain hsame | ⟨r, hrule⟩ := Session.setRule_cases _ text.toList
      · rw [hs, hsame]
        exact ⟨rfl, rfl⟩
      · rw [hs, hrule]
        exact ⟨rfl, rfl⟩
    · cases h

/-- The arguments of a session that is ready. -/
theorem exists_args_of_session? (h : (ofWords words).session? = some s) :
    ∃ args limit, CommandRequest.ofWords words = .ok (.run args) ∧ args.limit = some limit ∧
      session args limit = .ok s := by
  rw [ofWords] at h
  split at h
  · cases h
  · cases h
  · cases h
  · rename_i args hargs
    rw [ofArguments] at h
    split at h
    · cases h
    · rename_i limit hlimit
      split at h
      · cases h
      · rename_i s' hs'
        refine ⟨args, limit, hargs, hlimit, ?_⟩
        rw [ofSession] at h
        split at h
        · split at h
          · cases h
          · cases h
            exact hs'
        · cases h
          exact hs'
        · cases h
          exact hs'

/-- **A session that is ready allows for a pass.** -/
theorem one_le_limit_of_session? (h : (ofWords words).session? = some s) : 1 ≤ s.limit := by
  obtain ⟨args, limit, hargs, hlimit, hs⟩ := exists_args_of_session? h
  rw [(settings_of_session hs).2]
  exact CommandRequest.one_le_limit_of_ofWords hargs hlimit

/-- **A session that is ready has a strategy**, unless a word of the command line takes it away. -/
theorem strategy_ne_none_of_session? (h : (ofWords words).session? = some s)
    (hjoins : ∀ word ∈ words, Opt.strategy.joinsSeparator word = false) : s.strategy ≠ none := by
  obtain ⟨args, limit, hargs, -, hs⟩ := exists_args_of_session? h
  rw [(settings_of_session hs).1]
  exact CommandRequest.strategy_ne_none_of_ofWords hargs hjoins

end Plan

end TreeRules
