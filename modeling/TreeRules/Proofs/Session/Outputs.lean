import TreeRules.Proofs.Rule.TopLevel
import TreeRules.Proofs.Session.Runnable
import TreeRules.Proofs.Text.Written

/-!
# Trees are rewritten one by one

A line of trees, with one space between two of them, is executed tree by tree. Three things have to
hold for that, and each is a lemma of its own:

* the line is taken for trees, and not for a comment, a command or a rule
  (`Request.ofLine_renderAll`);
* what is read from it are the trees, and each of them is rewritten with the rule and the settings
  of the session, as if it were alone (`outputsOf_cases`);
* no output is longer than one line, so that the lines of the answer are those of the trees
  (`parse_linesAt_intercalate`).

The settings stay as they are (`execute_trees`). A line fails as a whole if one of its trees has no
fixpoint within the limit. It also fails in a session without a strategy, which a command line can
set up, though any strategy would do (`no_output_without_strategy`).
-/

namespace TreeRules

open Text

variable {s : Session} {r : Rule} {strategy : Strategy} {e : Expr} {es : List Expr}

/-! ## The line of the trees -/

namespace Expr

theorem lexed_renderAll (es : List Expr) : lexed (renderAll es).toList = spellings es := by
  have hspace : (" " : String) ≠ "" := by decide
  rw [renderAll_eq_intercalate]
  simpa using lexed_intercalate hspace (by decide) (lexed_render_of_mem es) endsWord_nil

theorem parseAll_renderAll (es : List Expr) : parseAllChars (renderAll es).toList = .ok es :=
  parseAllChars_of_lexed (lexed_renderAll es)

/-- The text of several trees begins like that of the first. -/
theorem isPrefix_renderAll (e : Expr) (es : List Expr) :
    e.render.toList <+: (renderAll (e :: es)).toList := by
  cases es with
  | nil => exact ⟨[], by rw [List.append_nil, renderAll]⟩
  | cons e' es =>
    rw [renderAll, String.toList_append, String.toList_append, List.append_assoc]
    exact List.prefix_append ..

/-- The text of several trees ends with no blank. -/
theorem endsDark_renderAll (e : Expr) (es : List Expr) :
    EndsDark (renderAll (e :: es)).toList := by
  induction es generalizing e with
  | nil =>
    rw [renderAll]
    exact endsDark_render e
  | cons e' es ih =>
    obtain ⟨c, cs, htext, -⟩ := exists_render_eq_cons e'
    have hne : (renderAll (e' :: es)).toList ≠ [] := by
      intro hnil
      have hprefix := isPrefix_renderAll e' es
      rw [hnil, htext, List.prefix_nil] at hprefix
      cases hprefix
    rw [renderAll, String.toList_append]
    exact (ih e').append_left hne _

end Expr

/-- A line of trees is taken for trees. -/
theorem Request.ofLine_renderAll
    (hmark : ∀ c ∈ e.render.toList.head?, c ≠ '#' ∧ c ≠ ':' ∧ c ≠ '@')
    (hleaf : ∀ e' ∈ e :: es, ¬ e'.IsArrowLeaf) :
    ofLine (Expr.renderAll (e :: es)).toList =
      .ok (.trees (Expr.renderAll (e :: es)).toList) := by
  obtain ⟨c, cs, htext, hc⟩ := e.exists_render_eq_cons
  obtain ⟨more, hline⟩ := e.isPrefix_renderAll es
  have hlexed := Expr.lexed_renderAll (e :: es)
  have hends := e.endsDark_renderAll es
  rw [htext, List.cons_append] at hline
  rw [htext] at hmark
  obtain ⟨hcomment, hcommand, hheader⟩ := hmark c rfl
  rw [← hline] at hlexed hends ⊢
  have htrim := trim_of_endsDark hc hends
  have hrule : ¬ isRuleLine (c :: (cs ++ more)) = true := by
    rw [isRuleLine_iff_exists (htrim.symm ▸ hlexed) htrim hcomment hheader]
    rintro ⟨e', he', harrow⟩
    exact hleaf e' he' harrow
  rw [ofLine_text htrim hcomment hcommand, if_neg hrule]

/-! ## The outputs -/

/-- Texts of trees, one under another, are read line by line as these trees. -/
theorem parse_linesAt_intercalate (es : List Expr) :
    (linesAt isNewline ("\n".intercalate (es.map Expr.render)).toList).map Expr.parseChars =
      es.map .ok := by
  have hwritten : Written (es.map fun e => e.render.toList)
      ("\n".intercalate (es.map Expr.render)).toList := by
    rw [String.toList_intercalate, List.map_map]
    refine written_intercalate fun line hline => ?_
    obtain ⟨e, -, rfl⟩ := List.mem_map.mp (List.mem_of_getLast? hline)
    obtain ⟨c, cs, htext, -⟩ := e.exists_render_eq_cons
    simp [htext]
  have hlines : linesAt isNewline ("\n".intercalate (es.map Expr.render)).toList =
      es.map fun e => e.render.toList := by
    refine hwritten.linesAt_eq (fun line hline c hc => ?_) rfl
    obtain ⟨e, -, rfl⟩ := List.mem_map.mp hline
    have hne : c ≠ '\n' := ne_of_mem_of_not_mem hc e.newline_notMem_render
    simpa [isNewline] using hne
  rw [hlines, List.map_map]
  exact List.map_congr_left fun e _ => e.parse_render

namespace Session

/-- **Each tree is rewritten as if it were alone.** All of them have results, and these are put out
in order, or one of them has none, and there is no output. -/
theorem outputsOf_cases (hstrategy : s.strategy = some strategy) (htracing : s.tracing = false)
    (r : Rule) (es : List Expr) :
    (∃ results : List Expr, es.map (r.simplify strategy) = results.map .ok ∧
        s.outputsOf r es = .ok (results.map Expr.render)) ∨
      ∃ e ∈ es, ∃ err, r.simplify strategy e = .error err ∧
        s.outputsOf r es = .error (.fixpoint err) := by
  induction es with
  | nil => exact .inl ⟨[], rfl, rfl⟩
  | cons e es ih =>
    have houtput : s.outputOf r e =
        ((r.simplify strategy e).map Expr.render).mapError .fixpoint := by
      simp only [outputOf, hstrategy, htracing]
      rfl
    rw [outputsOf, houtput]
    cases hresult : r.simplify strategy e with
    | error err => exact .inr ⟨e, List.mem_cons_self, err, hresult, rfl⟩
    | ok result =>
      rcases ih with ⟨results, hresults, hall⟩ | ⟨e', he', err, herr, hall⟩
      · refine .inl ⟨result :: results, ?_, ?_⟩
        · rw [List.map_cons, List.map_cons, hresult, hresults]
        · rw [hall]
          rfl
      · refine .inr ⟨e', List.mem_cons_of_mem e he', err, herr, ?_⟩
        rw [hall]
        rfl

/-- A line of trees asks for their outputs, and changes nothing that can be seen. -/
theorem execute_renderAll (hrule : s.rule = some r)
    (hmark : ∀ c ∈ e.render.toList.head?, c ≠ '#' ∧ c ≠ ':' ∧ c ≠ '@')
    (hleaf : ∀ e' ∈ e :: es, ¬ e'.IsArrowLeaf) :
    (s.execute (Expr.renderAll (e :: es)).toList).1.view = s.view ∧
      (s.execute (Expr.renderAll (e :: es)).toList).2 =
        (s.outputsOf (s.configure r) (e :: es)).map fun outputs =>
          ⟨some ("\n".intercalate outputs), true⟩ := by
  have hread := Request.ofLine_renderAll hmark hleaf
  constructor
  · rw [view_execute, View.heed, hread]
  · rw [execute, hread]
    simp only [simplify, hrule, simplifyWith, Expr.parseAll_renderAll]
    cases s.outputsOf (s.configure r) (e :: es) <;> rfl

/-- **Trees on a line are rewritten one by one**, in any session that can be reached, if it has a
rule and no traces are asked for. The line does not begin like a comment, a command or a header, and
none of the trees is a leaf with an arrow. Nothing that can be seen of the session changes. The
answer has one line for each tree, in order, and each of them is read as the result that the tree
has by itself; or the line fails because there is a tree without a fixpoint within the limit. In a
session without a strategy, all such lines fail. -/
theorem execute_trees {origin : Origin} {start : Session} (h : origin.session? = some start)
    (calls : List Call) {r : Rule} {e : Expr} {es : List Expr}
    (hrule : (start.afterCalls calls).rule = some r)
    (htracing : (start.afterCalls calls).tracing = false)
    (hmark : ∀ c ∈ e.render.toList.head?, c ≠ '#' ∧ c ≠ ':' ∧ c ≠ '@')
    (hleaf : ∀ e' ∈ e :: es, ¬ e'.IsArrowLeaf) :
    let s := start.afterCalls calls
    let line := (" ".intercalate ((e :: es).map Expr.render)).toList
    let exhausted : Except Failure Answer := .error (.fixpoint (.exhausted s.limit))
    (s.execute line).1.view = s.view ∧
      (s.strategy = none → (s.execute line).2 = .error .noStrategy) ∧
      ∀ strategy, s.strategy = some strategy →
        ((∃ results : List Expr,
            (e :: es).map ((s.configure r).simplify strategy) = results.map .ok ∧
            (s.execute line).2 = .ok ⟨some ("\n".intercalate (results.map Expr.render)), true⟩ ∧
            (linesAt isNewline ("\n".intercalate (results.map Expr.render)).toList).map
              Expr.parseChars = results.map .ok) ∨
          (s.execute line).2 = exhausted) ∧
        ((s.execute line).2 = exhausted ↔
          ∃ e' ∈ e :: es, (s.configure r).simplify strategy e' = .error (.exhausted s.limit)) := by
  intro s line exhausted
  obtain ⟨hview, hresult⟩ := execute_renderAll hrule hmark hleaf
  rw [Expr.renderAll_eq_intercalate] at hview hresult
  refine ⟨hview, fun hnone => ?_, fun strategy hstrategy => ?_⟩
  · have hfirst : s.outputOf (s.configure r) e = .error .noStrategy := by
      simp only [outputOf, hnone]
    rw [hresult, outputsOf, hfirst]
    rfl
  have hlimit : 1 ≤ (s.configure r).limit := one_le_limit_afterCalls (Origin.one_le_limit h) calls
  rcases outputsOf_cases hstrategy htracing (s.configure r) (e :: es) with
    ⟨results, hresults, houtputs⟩ | ⟨e', he', err, herr, houtputs⟩
  · have hok : (s.execute line).2 =
        .ok ⟨some ("\n".intercalate (results.map Expr.render)), true⟩ := by
      rw [hresult, houtputs]
      rfl
    refine ⟨.inl ⟨results, hresults, hok, parse_linesAt_intercalate results⟩, ?_⟩
    constructor
    · intro hfailed
      rw [hok] at hfailed
      simp only [exhausted, reduceCtorEq] at hfailed
    · rintro ⟨e', he', herr⟩
      have hmem : (s.configure r).simplify strategy e' ∈ results.map .ok :=
        hresults ▸ List.mem_map_of_mem he'
      obtain ⟨result, -, hresult'⟩ := List.mem_map.mp hmem
      rw [herr] at hresult'
      cases hresult'
  · obtain rfl := Rule.eq_exhausted_of_simplify hlimit herr
    have hfailed : (s.execute line).2 = exhausted := by
      rw [hresult, houtputs]
      rfl
    exact ⟨.inr hfailed, fun _ => ⟨e', he', herr⟩, fun _ => hfailed⟩

/-- The word `=>` is no arrow in a list. With `(f x_) => x`, all at once, the first tree loses the
outer `f`, and the others stay as they are. -/
theorem execute_trees_with_arrow_in_list :
    let origin := Origin.commandLine ["-r", "(f x_) => x", "-s", "all"]
    let start := origin.session?.getD .fresh
    let calls : List Call := [.process ":limit 3".toList]
    let s := start.afterCalls calls
    let f : Expr := .atom (.letter 'f' rfl)
    let arrow : Expr := .atom ⟨['=', '>'], by decide, by decide⟩
    let e : Expr := .list [f, .list [f, .atom (.letter 'a' rfl)]]
    let es : List Expr :=
      [.list [.atom (.letter 'g' rfl), arrow], .marker (some (.letter 'y' rfl)) .one]
    let line := "(f (f a)) (g =>) y_".toList
    origin.session? = some start ∧ s.rule.isSome = true ∧ s.tracing = false ∧
      s.strategy = some .all ∧ (" ".intercalate ((e :: es).map Expr.render)).toList = line ∧
      (∀ e' ∈ e :: es, ¬ e'.IsArrowLeaf) ∧ (s.execute line).1.view = s.view ∧
      (s.process line).2 = some "(f a)\n(g =>)\ny_" ∧
      ∃ results : List Expr, results.length = 3 ∧
        (s.execute line).2 = .ok ⟨some ("\n".intercalate (results.map Expr.render)), true⟩ := by
  intro origin start calls s f arrow e es line
  have hready : origin.session?.isSome = true := by decide +kernel
  have hstart : origin.session? = some start :=
    (Option.getD_of_ne_none (Option.isSome_iff_ne_none.mp hready) .fresh).symm
  have hrule : s.rule.isSome = true := by decide +kernel
  have htracing : s.tracing = false := by decide +kernel
  have hstrategy : s.strategy = some .all := by decide +kernel
  have hline : (" ".intercalate ((e :: es).map Expr.render)).toList = line := by decide +kernel
  have hmark : ∀ c ∈ e.render.toList.head?, c ≠ '#' ∧ c ≠ ':' ∧ c ≠ '@' := by
    have hhead : e.render.toList.head? = some '(' := by decide +kernel
    rw [hhead]
    rintro c ⟨⟩
    decide
  have hleaf : ∀ e' ∈ e :: es, ¬ e'.IsArrowLeaf := by
    have hnone : (arrow? (Expr.renderAll (e :: es)).toList).isSome = false := by decide +kernel
    intro e' he' harrow
    have hsome := (Expr.isSome_arrow?_iff (Expr.lexed_renderAll (e :: es))).mpr ⟨e', he', harrow⟩
    rw [hnone] at hsome
    cases hsome
  have hanswered : (s.execute line).2.isOk = true := by decide +kernel
  obtain ⟨r, hr⟩ := Option.isSome_iff_exists.mp hrule
  obtain ⟨hview, -, hresults⟩ := execute_trees hstart calls hr htracing hmark hleaf
  rw [hline] at hview hresults
  refine ⟨hstart, hrule, htracing, hstrategy, hline, hleaf, hview, by decide +kernel, ?_⟩
  obtain ⟨results, hmap, hok, -⟩ | hfailed := (hresults .all hstrategy).1
  · have hlength := congrArg List.length hmap
    rw [List.length_map, List.length_map] at hlength
    exact ⟨results, hlength.symm, hok⟩
  · rw [hfailed] at hanswered
    cases hanswered

/-- **Without a strategy there is no output.** A command line has set a rule up, but has taken the
strategy away, as it can with the argument parser of particular older releases. Each of the three
strategies that there are would put out `y`. -/
theorem no_output_without_strategy :
    let origin := Origin.commandLine ["-r", "x => y", "-s--"]
    let s := origin.session?.getD .fresh
    let line := "x".toList
    origin.session?.isSome = true ∧ s.rule.isSome = true ∧ s.tracing = false ∧
      (s.execute line).2.isOk = false ∧
      (s.process line).2 =
        some "Error: Unknown strategy: []. Valid options: once, all, fixpoint" ∧
      (Strategy.every.all fun strategy =>
        ({ s with strategy := some strategy }.process line).2 == some "y") = true := by
  decide +kernel

end Session

end TreeRules
