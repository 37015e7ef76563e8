import Mathlib.Data.List.SplitBy
import TreeRules.Proofs.Rule.Tracing
import TreeRules.Proofs.Session.Outputs

/-!
# Traces read back

A session that traces answers each tree with a chain: the tree, and the trees that came of it one
after another, with a label between any two that names the rule. The chains of several trees stand
one under another, and nothing marks where one of them ends. Still every tree of every trace can be
read back (`readChains`):

* no text in a chain holds a line feed, be it a tree or the name of a rule, so that the lines of the
  answer are those that were written (`splitOn_chains`);
* a label begins with two spaces and a tree with none (`isLabelLine_render`), so that the trees of a
  chain are found between its labels (`filter_not_chainLines`);
* there is a label between two trees of the same chain, and none between two chains, so that a chain
  ends where a tree stands right above a tree (`splitBy_chains`).
-/

namespace TreeRules

variable {label : List Char} {e : Expr} {es trees : List Expr} {chains : List (List Expr)}
  {r : Rule} {s : Session} {strategy : Strategy} {t : Trace} {traces : List Trace}

/-! ## Labels and trees -/

/-- Does the line begin with two spaces? -/
def isLabelLine (line : List Char) : Bool := [' ', ' '].isPrefixOf line

/-- The label of the steps of a rule with this name. -/
def labelLine (name : Option String) : List Char :=
  ("  --(" ++ name.getD "rule" ++ ")-->").toList

theorem isLabelLine_labelLine (name : Option String) : isLabelLine (labelLine name) = true := by
  simp [isLabelLine, labelLine]

/-- No tree begins like a label. -/
theorem isLabelLine_render (e : Expr) : isLabelLine e.render.toList = false := by
  obtain ⟨c, cs, htext, hc⟩ := e.exists_render_eq_cons
  have hne : (' ' == c) = false := by
    refine beq_eq_false_iff_ne.mpr ?_
    rintro rfl
    exact absurd hc (by decide)
  rw [isLabelLine, htext, List.isPrefixOf, hne, Bool.false_and]

/-! ## The lines of a chain -/

/-- The lines of a chain: its trees, with a label between any two. -/
def chainLines (label : List Char) : List Expr → List (List Char)
  | [] => []
  | [e] => [e.render.toList]
  | e :: e' :: trees => e.render.toList :: label :: chainLines label (e' :: trees)

/-- Is one of the two lines a label? -/
def besideLabel (above below : List Char) : Bool := isLabelLine above || isLabelLine below

/-- Read the chains in a text. A chain ends where a tree stands right above a tree. -/
def readChains (text : List Char) : List (List (Except ReadError Expr)) :=
  ((text.splitOn '\n').splitBy besideLabel).map fun chain =>
    (chain.filter (!isLabelLine ·)).map Expr.parseChars

/-- The first line of a chain is its first tree. -/
theorem exists_chainLines_eq_cons (label : List Char) (e : Expr) (trees : List Expr) :
    ∃ lines, chainLines label (e :: trees) = e.render.toList :: lines := by
  cases trees with
  | nil => exact ⟨[], rfl⟩
  | cons e' trees => exact ⟨_, rfl⟩

theorem chainLines_ne_nil (hne : trees ≠ []) : chainLines label trees ≠ [] := by
  obtain ⟨e, trees, rfl⟩ := List.exists_cons_of_ne_nil hne
  obtain ⟨lines, hlines⟩ := exists_chainLines_eq_cons label e trees
  rw [hlines]
  exact List.cons_ne_nil _ _

/-- Each line of a chain is a tree or a label. -/
theorem cases_of_mem_chainLines {line : List Char} (h : line ∈ chainLines label trees) :
    (∃ e ∈ trees, line = e.render.toList) ∨ line = label := by
  fun_induction chainLines label trees with
  | case1 => cases h
  | case2 e => exact .inl ⟨e, List.mem_cons_self, List.mem_singleton.mp h⟩
  | case3 e e' trees ih =>
    rcases List.mem_cons.mp h with rfl | h
    · exact .inl ⟨e, List.mem_cons_self, rfl⟩
    rcases List.mem_cons.mp h with rfl | h
    · exact .inr rfl
    · exact (ih h).imp_left fun ⟨e, he, htext⟩ => ⟨e, List.mem_cons_of_mem _ he, htext⟩

/-- A chain ends with a tree. -/
theorem isLabelLine_of_mem_getLast? {line : List Char}
    (h : line ∈ (chainLines label trees).getLast?) : isLabelLine line = false := by
  fun_induction chainLines label trees with
  | case1 => cases h
  | case2 e =>
    cases h
    exact isLabelLine_render e
  | case3 e e' trees ih =>
    obtain ⟨lines, hlines⟩ := exists_chainLines_eq_cons label e' trees
    rw [hlines] at h ih
    exact ih h

/-- The trees of a chain are the lines that are no labels. -/
theorem filter_not_chainLines (hlabel : isLabelLine label = true) (trees : List Expr) :
    (chainLines label trees).filter (!isLabelLine ·) = trees.map fun e => e.render.toList := by
  fun_induction chainLines label trees with
  | case1 => rfl
  | case2 e => simp [isLabelLine_render]
  | case3 e e' trees ih => simp [isLabelLine_render, hlabel, ih]

/-- There is one label less than there are trees. -/
theorem filter_chainLines (hlabel : isLabelLine label = true) (trees : List Expr) :
    (chainLines label trees).filter isLabelLine = trees.tail.map fun _ => label := by
  fun_induction chainLines label trees with
  | case1 => rfl
  | case2 e => simp [isLabelLine_render]
  | case3 e e' trees ih => simp [isLabelLine_render, hlabel, ih]

/-- Of two lines of a chain that touch, one is a label. -/
theorem isChain_chainLines (hlabel : isLabelLine label = true) (trees : List Expr) :
    (chainLines label trees).IsChain fun above below => besideLabel above below = true := by
  fun_induction chainLines label trees with
  | case1 => exact .nil
  | case2 e => exact .singleton _
  | case3 e e' trees ih =>
    refine List.isChain_cons_cons.mpr ⟨by simp [besideLabel, hlabel], ?_⟩
    exact List.isChain_cons.mpr ⟨fun line _ => by simp [besideLabel, hlabel], ih⟩

/-! ## Several chains -/

/-- **A chain ends where a tree stands right above a tree.** -/
theorem splitBy_chains (hlabel : isLabelLine label = true) (hne : ∀ trees ∈ chains, trees ≠ []) :
    (chains.flatMap (chainLines label)).splitBy besideLabel = chains.map (chainLines label) := by
  induction chains with
  | nil => rfl
  | cons trees chains ih =>
    rw [List.forall_mem_cons] at hne
    have hend : ∀ above ∈ (chainLines label trees).getLast?,
        ∀ below ∈ (chains.flatMap (chainLines label)).head?, besideLabel above below = false := by
      intro above habove below hbelow
      cases chains with
      | nil => cases hbelow
      | cons trees' chains =>
        obtain ⟨e, trees', rfl⟩ := List.exists_cons_of_ne_nil (hne.2 _ List.mem_cons_self)
        obtain ⟨lines, hlines⟩ := exists_chainLines_eq_cons label e trees'
        rw [List.flatMap_cons, hlines] at hbelow
        cases hbelow
        rw [besideLabel, isLabelLine_of_mem_getLast? habove, isLabelLine_render, Bool.or_false]
    rw [List.flatMap_cons, List.splitBy_append hend, ih hne.2, List.map_cons,
      List.splitBy_of_isChain (chainLines_ne_nil hne.1) (isChain_chainLines hlabel trees),
      List.singleton_append]

/-- The lines of chains are those that were written. -/
theorem splitOn_chains (hlabel : '\n' ∉ label) (hchains : chains ≠ [])
    (hne : ∀ trees ∈ chains, trees ≠ []) :
    (['\n'].intercalate (chains.flatMap (chainLines label))).splitOn '\n' =
      chains.flatMap (chainLines label) := by
  refine List.splitOn_intercalate '\n' (fun line hline => ?_) fun hnil => ?_
  · obtain ⟨trees, -, hmem⟩ := List.mem_flatMap.mp hline
    rcases cases_of_mem_chainLines hmem with ⟨e, -, rfl⟩ | rfl
    · exact e.newline_notMem_render
    · exact hlabel
  · obtain ⟨trees, chains, rfl⟩ := List.exists_cons_of_ne_nil hchains
    rw [List.flatMap_cons] at hnil
    exact chainLines_ne_nil (hne _ List.mem_cons_self) (List.append_eq_nil_iff.mp hnil).1

/-- **Chains are read back**, all of their trees. -/
theorem readChains_chains (hlabel : isLabelLine label = true) (hnewline : '\n' ∉ label)
    (hchains : chains ≠ []) (hne : ∀ trees ∈ chains, trees ≠ []) :
    readChains (['\n'].intercalate (chains.flatMap (chainLines label))) =
      chains.map (·.map .ok) := by
  rw [readChains, splitOn_chains hnewline hchains hne, splitBy_chains hlabel hne, List.map_map]
  refine List.map_congr_left fun trees _ => ?_
  rw [Function.comp_apply, filter_not_chainLines hlabel, List.map_map]
  exact List.map_congr_left fun e _ => e.parse_render

/-! ## Traces as chains -/

namespace Trace

/-- The trees of a trace: the first one, and what each step made of it. -/
def chain (t : Trace) : List Expr := t.initial.toList ++ t.steps.map Step.after

/-- A trace is shown as the chain of its trees. -/
theorem map_toList_lines (h : t.initial = some e) :
    (t.lines .chain).map String.toList =
      chainLines ("  --(" ++ t.label ++ ")-->").toList t.chain := by
  rw [lines, chain, h, Option.toList_some, List.singleton_append]
  clear h
  induction t.steps generalizing e with
  | nil => rfl
  | cons step steps ih =>
    rw [List.map_cons (f := Step.after), chainLines, ← ih]
    rfl

/-- What a trace is labelled with, unless its rule has an empty name. -/
theorem label_eq (hname : t.ruleName ≠ some "") : t.label = t.ruleName.getD "rule" := by
  rw [label]
  cases hrule : t.ruleName with
  | none => rfl
  | some n =>
    rw [hrule] at hname
    have hne : n ≠ "" := fun heq => hname (congrArg some heq)
    simp [Option.filter, hne]

end Trace

namespace Rule

/-- A tree that has a result has a trace, of this rule, which begins with it. -/
theorem exists_trace {result : Expr} (h : r.simplify strategy e = .ok result) :
    ∃ t, r.trace strategy e = .ok t ∧ t.ruleName = r.name ∧ t.initial = some e := by
  have hchange : ∀ change, (r.traceOfChange e change).ruleName = r.name ∧
      (r.traceOfChange e change).initial = some e := by
    intro change
    cases change <;> exact ⟨rfl, rfl⟩
  cases strategy with
  | once => exact ⟨_, rfl, hchange _⟩
  | all => exact ⟨_, rfl, hchange _⟩
  | fixpoint =>
    rw [simplify, Replacement.normalize] at h
    rw [trace]
    by_cases hlimit : r.limit < 1
    · rw [if_pos hlimit] at h
      cases h
    · rw [if_neg hlimit] at h ⊢
      obtain ⟨-, hplain⟩ | ⟨last, n, steps, htraced, -⟩ :=
        r.iterateTraced_spec r.limit.toNat 1 0 [] e
      · rw [hplain] at h
        cases h
      · rw [htraced]
        exact ⟨_, rfl, rfl, rfl⟩

/-- The name of a rule that was read can stand in a header. -/
theorem header_of_ofText {text : String} (h : ofText text = .ok r) :
    HeadedLine.Header r.name r.description := by
  obtain ⟨line, hmem, hline⟩ := exists_mem_of_ofText h
  refine (printable_of_ofLine hline fun hnewline => ?_).header
  cases Text.not_isEnd_of_mem_linesAt hmem hnewline

end Rule

theorem HeadedLine.Header.name_ne_empty {name description : Option String}
    (h : HeadedLine.Header name description) : name ≠ some "" := by
  rintro rfl
  exact (h.name_valid "" rfl).1 rfl

/-- Such a name breaks no line. -/
theorem newline_notMem_labelLine {name description : Option String}
    (h : HeadedLine.Header name description) : '\n' ∉ labelLine name := by
  have hname : '\n' ∉ (name.getD "rule").toList := by
    cases name with
    | none => decide
    | some n => exact HeadedLine.notMem_name (h.name_valid n rfl).2 HeadedLine.isNamePart_newline
  simp [labelLine, hname]

/-! ## The text of several traces -/

/-- Texts of several lines each, one under another, are all of their lines. -/
theorem intercalate_flatten (sep : String) {groups : List (List String)}
    (hne : ∀ texts ∈ groups, texts ≠ []) :
    sep.intercalate (groups.map sep.intercalate) = sep.intercalate groups.flatten := by
  induction groups with
  | nil => rfl
  | cons texts groups ih =>
    rw [List.forall_mem_cons] at hne
    cases groups with
    | nil => simp
    | cons texts' groups =>
      have hrest : (texts' :: groups).flatten ≠ [] := by
        rw [List.flatten_cons]
        exact List.append_ne_nil_of_left_ne_nil (hne.2 _ List.mem_cons_self) _
      rw [List.map_cons, List.flatten_cons, String.intercalate_append_of_ne_nil hne.1 hrest,
        ← ih hne.2, List.map_cons, String.intercalate_cons_of_ne_nil (List.cons_ne_nil _ _)]

/-- The chains of traces of the same rule, one under another. -/
theorem toList_intercalate_render {name : Option String} (hname : name ≠ some "")
    (hrule : ∀ t ∈ traces, t.ruleName = name) (hknown : ∀ t ∈ traces, ∃ e, t.initial = some e) :
    ("\n".intercalate (traces.map (·.render .chain))).toList =
      ['\n'].intercalate ((traces.map Trace.chain).flatMap (chainLines (labelLine name))) := by
  have hlines : ∀ texts ∈ traces.map (·.lines .chain), texts ≠ [] := by
    intro texts htexts
    obtain ⟨t, -, rfl⟩ := List.mem_map.mp htexts
    exact List.cons_ne_nil _ _
  have hflat := intercalate_flatten "\n" hlines
  rw [List.map_map] at hflat
  have hchain : ∀ t ∈ traces, (t.lines .chain).map String.toList =
      chainLines (labelLine name) t.chain := by
    intro t ht
    obtain ⟨e, he⟩ := hknown t ht
    rw [Trace.map_toList_lines he, Trace.label_eq (hrule t ht ▸ hname), hrule t ht, labelLine]
  rw [show traces.map (·.render .chain) = traces.map ("\n".intercalate ∘ (·.lines .chain)) from rfl,
    hflat, String.toList_intercalate, ← List.flatMap_def, List.map_flatMap, List.flatMap_map]
  exact congrArg _ (List.flatMap_congr hchain)

/-- **The text of traces is read back**: its labels are those of the steps, one for each, and its
chains are those of the traces. -/
theorem readChains_traces {name description : Option String}
    (hheader : HeadedLine.Header name description) (hne : traces ≠ [])
    (hrule : ∀ t ∈ traces, t.ruleName = name) (hknown : ∀ t ∈ traces, ∃ e, t.initial = some e) :
    let output := ("\n".intercalate (traces.map (·.render .chain))).toList
    (output.splitOn '\n').filter isLabelLine =
        (traces.flatMap Trace.steps).map (fun _ => labelLine name) ∧
      readChains output = traces.map fun t => t.chain.map .ok := by
  have hnewline := newline_notMem_labelLine hheader
  have hlabel := isLabelLine_labelLine name
  have hoccurs : traces.map Trace.chain ≠ [] := mt List.map_eq_nil_iff.mp hne
  have hchains : ∀ trees ∈ traces.map Trace.chain, trees ≠ [] := by
    intro trees htrees
    obtain ⟨t, ht, rfl⟩ := List.mem_map.mp htrees
    obtain ⟨e, he⟩ := hknown t ht
    rw [Trace.chain, he]
    exact List.cons_ne_nil e _
  dsimp only
  rw [toList_intercalate_render hheader.name_ne_empty hrule hknown]
  constructor
  · rw [splitOn_chains hnewline hoccurs hchains, List.filter_flatMap, List.flatMap_map,
      List.map_flatMap]
    refine List.flatMap_congr fun t ht => ?_
    obtain ⟨e, he⟩ := hknown t ht
    rw [filter_chainLines hlabel, Trace.chain, he]
    exact List.map_map
  · rw [readChains_chains hlabel hnewline hoccurs hchains, List.map_map]
    rfl

/-! ## Sessions that trace -/

namespace Session

/-- Trees that have results have traces, which begin with them. -/
theorem exists_traces (h : ∀ e ∈ es, ∃ result, r.simplify strategy e = .ok result) :
    ∃ traces : List Trace, es.map (r.trace strategy) = traces.map .ok ∧
      traces.map Trace.initial = es.map some ∧ ∀ t ∈ traces, t.ruleName = r.name := by
  induction es with
  | nil => exact ⟨[], rfl, rfl, fun _ ht => absurd ht List.not_mem_nil⟩
  | cons e es ih =>
    rw [List.forall_mem_cons] at h
    obtain ⟨result, hresult⟩ := h.1
    obtain ⟨traces, htraces, hinitial, hname⟩ := ih h.2
    obtain ⟨t, ht, hrule, he⟩ := Rule.exists_trace hresult
    refine ⟨t :: traces, ?_, ?_, List.forall_mem_cons.mpr ⟨hrule, hname⟩⟩
    · rw [List.map_cons, List.map_cons, ht, htraces]
    · rw [List.map_cons, List.map_cons, he, hinitial]

/-- A session that traces puts out the traces. -/
theorem outputsOf_of_traces (hstrategy : s.strategy = some strategy) (htracing : s.tracing = true)
    (h : es.map (r.trace strategy) = traces.map .ok) :
    s.outputsOf r es = .ok (traces.map (·.render .chain)) := by
  induction es generalizing traces with
  | nil =>
    obtain rfl := List.map_eq_nil_iff.mp h.symm
    rfl
  | cons e es ih =>
    obtain ⟨t, traces, rfl, ht, hrest⟩ := List.map_eq_cons_iff.mp h.symm
    have houtput : s.outputOf r e = .ok (t.render .chain) := by
      simp only [outputOf, hstrategy, htracing, ← ht]
      rfl
    rw [outputsOf, houtput, ih hrest.symm]
    rfl

/-- The trees of a text have their outputs one under another. -/
theorem simplify_renderAll (hrule : s.rule = some r) (es : List Expr) :
    (s.simplify (Expr.renderAll es).toList).2 =
      (s.outputsOf (s.configure r) es).map ("\n".intercalate ·) := by
  simp only [simplify, hrule, simplifyWith, Expr.parseAll_renderAll]

/-- **Traces are read back**, for every rule that was read from a text, with any strategy, limit and
strictness under which all of the trees have results. The lines that begin with two spaces are the
labels of the steps, one for each. The other lines are trees, and they fall into one chain for each
of the trees: that tree, and what the steps of its trace made of it. -/
theorem traces_read_back {text : String} (h : Rule.ofText text = .ok r) (s : Session)
    (strategy : Strategy) (hne : es ≠ [])
    (hresults : ∀ e ∈ es, ∃ result, (s.configure r).simplify strategy e = .ok result) :
    let tracing : Session := { s with rule := some r, strategy := some strategy, tracing := true }
    ∃ (output : String) (traces : List Trace),
      (tracing.simplify (" ".intercalate (es.map Expr.render)).toList).2 = .ok output ∧
      es.map ((s.configure r).trace strategy) = traces.map .ok ∧
      traces.map Trace.initial = es.map some ∧
      (output.toList.splitOn '\n').filter isLabelLine =
        (traces.flatMap Trace.steps).map (fun _ => labelLine r.name) ∧
      readChains output.toList = traces.map fun t => t.chain.map .ok := by
  intro tracing
  obtain ⟨traces, htraces, hinitial, hname⟩ := exists_traces hresults
  have hknown : ∀ t ∈ traces, ∃ e, t.initial = some e := by
    intro t ht
    have hmem : t.initial ∈ es.map some := hinitial ▸ List.mem_map_of_mem ht
    obtain ⟨e, -, he⟩ := List.mem_map.mp hmem
    exact ⟨e, he.symm⟩
  have hoccurs : traces ≠ [] := by
    rintro rfl
    exact hne (List.map_eq_nil_iff.mp htraces)
  have houtputs : tracing.outputsOf (tracing.configure r) es =
      .ok (traces.map (·.render .chain)) := outputsOf_of_traces rfl rfl htraces
  have houtput := simplify_renderAll (s := tracing) rfl es
  rw [houtputs, Expr.renderAll_eq_intercalate] at houtput
  exact ⟨_, traces, houtput, htraces, hinitial,
    readChains_traces (Rule.header_of_ofText h) hoccurs hname hknown⟩

/-- With `@peel: (f x_) => x` the trace of `(f (f a))` has two steps, and that of `a` has none. Of
the six lines of both chains the last two are trees: there the second chain begins. -/
theorem traces_read_back_one_under_another :
    let f : Token := .letter 'f' rfl
    let x : Token := .letter 'x' rfl
    let a : Expr := .atom (.letter 'a' rfl)
    let r : Rule :=
      ⟨⟨.list [.atom f, .marker (some x) .one], .atom x, false⟩, some "peel", none, defaultLimit⟩
    let es : List Expr := [.list [.atom f, .list [.atom f, a]], a]
    let s : Session := { limit := 3 }
    let tracing : Session := { s with rule := some r, tracing := true }
    let output := "(f (f a))\n  --(peel)-->\n(f a)\n  --(peel)-->\na\na"
    Rule.ofText "@peel: (f x_) => x" = .ok r ∧
      (∀ e ∈ es, ∃ result, (s.configure r).simplify .fixpoint e = .ok result) ∧
      (tracing.simplify (" ".intercalate (es.map Expr.render)).toList).2 = .ok output ∧
      ∃ traces : List Trace,
        es.map ((s.configure r).trace .fixpoint) = traces.map .ok ∧
        readChains output.toList = traces.map fun t => t.chain.map .ok := by
  intro f x a r es s tracing output
  have hlines : Text.linesAt Text.isNewline "@peel: (f x_) => x".toList =
      ["@peel: (f x_) => x".toList] := by decide +kernel
  have hheader : HeadedLine.ofLine "@peel: (f x_) => x".toList =
      ⟨some "peel", none, "(f x_) ".toList ++ '=' :: '>' :: " x".toList⟩ := by decide +kernel
  have hsplit : SplitLine.ofLine? "@peel: (f x_) => x".toList =
      some ⟨some "peel", none, "(f x_) ".toList, " x".toList⟩ :=
    SplitLine.ofLine?_of_arrow (by decide +kernel) (by decide) hheader (by decide +kernel)
  have hread : Rule.ofText "@peel: (f x_) => x" = .ok r := by
    rw [Rule.ofText, hlines, Rule.ofLines, Rule.ofLine, hsplit]
    rfl
  have hresults : ∀ e ∈ es, ∃ result, (s.configure r).simplify .fixpoint e = .ok result := by
    rintro e he
    rcases List.mem_cons.mp he with rfl | he
    · exact ⟨a, rfl⟩
    · obtain rfl := List.mem_singleton.mp he
      exact ⟨a, rfl⟩
  obtain ⟨output', traces, houtput', htraces, -, -, hchains⟩ :=
    traces_read_back hread s .fixpoint (List.cons_ne_nil _ _) hresults
  have houtput : (tracing.simplify (" ".intercalate (es.map Expr.render)).toList).2.toOption =
      some output := by decide +kernel
  rw [houtput'] at houtput
  obtain rfl : output' = output := Option.some.inj houtput
  exact ⟨hread, hresults, houtput', traces, htraces, hchains⟩

end Session

end TreeRules
