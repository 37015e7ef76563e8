import TreeRules.Proofs.Rule.Header
import TreeRules.Proofs.Rule.Parens

/-!
# The text of a rule reads back as the rule

Rendering is safe for every rule that was read from a text. Not every rule is: the pattern `a=>b`
would be cut at its own arrow, the patterns `#a` and `@a:b` would make a comment and a header. But
none of them can be read, so what has been read is `Printable` (`printable_of_ofLine`), and what is
printable reads back (`ofLine_render`).

That the pattern has no arrow is seen in its tokens, which are the same in both texts. What makes a
comment or a header is seen in the first word of a line without a header, and that word is the
pattern unless the pattern is a list.
-/

namespace TreeRules

open Text

variable {c : Char} {cs line word : List Char} {r : Rule}

/-! ## The texts of trees -/

namespace Expr

/-- The text of a tree is a word, or it stands between parentheses. -/
theorem text_cases (e : Expr) :
    (∃ word, word ≠ [] ∧ word.all isWordPart = true ∧ e.render.toList = word ∧
        e.spelling = [.word word]) ∨
      ∃ inside, e.render.toList = '(' :: (inside ++ [')']) := by
  cases e with
  | atom x =>
    refine .inl ⟨x.chars, x.ne_nil, all_isWordPart_chars x, ?_, spelling_atom x⟩
    rw [render_atom, Token.text, String.toList_ofList]
  | marker x s =>
    refine .inl ⟨_, markerChars_ne_nil x s, all_isWordPart_markerChars x s, ?_, spelling_marker x s⟩
    rw [render_marker, String.toList_ofList]
  | list cs =>
    refine .inr ⟨(renderAll cs).toList, ?_⟩
    rw [render_list, String.toList_append, String.toList_append]
    rfl

theorem isBlank_of_mem_word (hword : word.all isWordPart = true) (hc : c ∈ word) :
    isBlank c = false :=
  (isWordPart_iff.mp (List.all_eq_true.mp hword c hc)).1

/-- The text of a tree begins with no blank. -/
theorem exists_render_eq_cons (e : Expr) :
    ∃ c cs, e.render.toList = c :: cs ∧ isBlank c = false := by
  rcases e.text_cases with ⟨word, hne, hword, htext, -⟩ | ⟨inside, htext⟩
  · obtain ⟨c, cs, rfl⟩ := List.exists_cons_of_ne_nil hne
    exact ⟨c, cs, htext, isBlank_of_mem_word hword List.mem_cons_self⟩
  · exact ⟨_, _, htext, by decide⟩

/-- The text of a tree ends with no blank. -/
theorem endsDark_render (e : Expr) : EndsDark e.render.toList := by
  rcases e.text_cases with ⟨word, -, hword, htext, -⟩ | ⟨inside, htext⟩
  · rw [htext]
    exact fun c hc => isBlank_of_mem_word hword (List.mem_of_getLast? hc)
  · rw [htext, ← List.cons_append]
    intro c hc
    rw [List.getLast?_concat] at hc
    cases hc
    decide

mutual

/-- The text of a tree is on one line. -/
theorem newline_notMem_render (e : Expr) : '\n' ∉ e.render.toList := by
  match e with
  | .atom x =>
    rw [render_atom, Token.text, String.toList_ofList]
    intro hmem
    cases isBlank_of_mem_word (all_isWordPart_chars x) hmem
  | .marker x s =>
    rw [render_marker, String.toList_ofList]
    intro hmem
    cases isBlank_of_mem_word (all_isWordPart_markerChars x s) hmem
  | .list cs =>
    have hchildren := newline_notMem_renderAll cs
    rw [render_list, String.toList_append, String.toList_append, List.mem_append, List.mem_append]
    rintro ((hmem | hmem) | hmem)
    · exact absurd hmem (by decide)
    · exact hchildren hmem
    · exact absurd hmem (by decide)

/-- The texts of several trees are on one line. -/
theorem newline_notMem_renderAll (es : List Expr) : '\n' ∉ (renderAll es).toList := by
  match es with
  | [] =>
    rw [renderAll]
    exact List.not_mem_nil
  | [e] =>
    rw [renderAll]
    exact newline_notMem_render e
  | e :: e' :: es =>
    have hfirst := newline_notMem_render e
    have hothers := newline_notMem_renderAll (e' :: es)
    rw [renderAll, String.toList_append, String.toList_append, List.mem_append, List.mem_append]
    rintro ((hmem | hmem) | hmem)
    · exact hfirst hmem
    · exact absurd hmem (by decide)
    · exact hothers hmem

end

/-- A text that is read as the tree of a word, and begins with no blank, begins with the word. -/
theorem isPrefix_of_lexed_eq_word (h : lexed (c :: cs) = [.word word]) (hc : isBlank c = false) :
    word <+: c :: cs := by
  rw [lexed_eq_tokens, tokens] at h
  split at h
  · cases h
  · split at h
    · cases h
    · rw [if_neg (by simp [hc]), List.cons.injEq, Lexeme.word.injEq] at h
      rw [← h.1]
      exact List.cons_prefix_cons.mpr ⟨rfl, List.takeWhile_prefix _⟩

end Expr

namespace Rule

/-! ## What has been read can be printed -/

/-- A rule whose text is taken apart where it was put together. -/
structure Printable (r : Rule) : Prop where
  /-- name and description can stand in a header -/
  header : HeadedLine.Header r.name r.description
  /-- the pattern has no arrow outside its parentheses -/
  no_arrow : arrow? r.pattern.render.toList = none
  /-- without a header in front of it, the pattern begins no comment -/
  no_comment : r.name = none → r.pattern.render.toList.head? ≠ some '#'
  /-- without a header in front of it, the pattern begins none itself -/
  no_header : r.name = none → ¬ HeadedLine.OpensHeader r.pattern.render.toList
  /-- the limit is the one that rules are read with -/
  limit_eq : r.limit = defaultLimit
  /-- the rule is not strict, as no rule is when it is read -/
  strict_eq : r.strict = false

/-- In a line that a word is read from in front of the arrow, the word is the first thing. -/
theorem exists_eq_word_append {front back : List Char} (hlexed : lexed front = [.word word])
    (hdark : ∀ c ∈ (front ++ '=' :: '>' :: back).head?, isBlank c = false) :
    ∃ more, front ++ '=' :: '>' :: back = word ++ more ∧ '=' ∈ more := by
  cases front with
  | nil => cases hlexed
  | cons c front =>
    obtain ⟨more, hmore⟩ := Expr.isPrefix_of_lexed_eq_word hlexed (hdark c rfl)
    refine ⟨more ++ '=' :: '>' :: back, ?_, by simp⟩
    rw [← hmore, List.append_assoc]

/-- **A rule that has been read can be printed.** -/
theorem printable_of_ofLine (h : ofLine line = .ok (some r)) (hline : '\n' ∉ line) :
    r.Printable := by
  obtain ⟨s, p, t, hs, hpattern, -, rfl⟩ := exists_split_of_ofLine h
  obtain ⟨hcomment, hrest, hnone, hname, hdescription⟩ := SplitLine.exists_of_ofLine? hs
  have hlexed := Expr.lexed_of_parseChars hpattern
  have htrim : '\n' ∉ trim line := fun hmem => hline (mem_of_mem_trim hmem)
  have hsame : lexed s.pattern = lexed p.render.toList := by
    rw [hlexed, Expr.lexed_toList_render]
  -- without a header the line begins with the pattern
  have hfirst : s.name = none → ∀ word, p.spelling = [.word word] →
      ∃ more, trim line = word ++ more ∧ '=' ∈ more := by
    intro hunnamed word hword
    rw [hname] at hunnamed
    rw [HeadedLine.rest_of_name_eq_none hunnamed] at hrest
    rw [hrest]
    refine exists_eq_word_append (hlexed.trans hword) fun c hc => ?_
    rw [← hrest] at hc
    exact isBlank_of_mem_head?_trim hc
  refine ⟨?_, arrow?_eq_none_of_lexed_eq hsame hnone, ?_, ?_, rfl, rfl⟩
  · rw [hname, hdescription]
    exact HeadedLine.Header.of_ofLine htrim
  · intro hunnamed hhash
    rcases p.text_cases with ⟨word, hne, -, htext, hword⟩ | ⟨inside, htext⟩
    · obtain ⟨more, hmore, -⟩ := hfirst hunnamed word hword
      rw [htext] at hhash
      rw [hmore, List.head?_append, hhash] at hcomment
      exact hcomment rfl
    · rw [htext] at hhash
      cases hhash
  · intro hunnamed hopens
    rcases p.text_cases with ⟨word, hne, -, htext, hword⟩ | ⟨inside, htext⟩
    · obtain ⟨more, hmore, hequal⟩ := hfirst hunnamed word hword
      rw [htext] at hopens
      rw [hname, hmore] at hunnamed
      exact HeadedLine.name_ne_none_of_opensHeader hopens hequal (by decide) hunnamed
    · obtain ⟨_, _, heq, -⟩ := hopens
      rw [htext] at heq
      cases heq

/-! ## What can be printed reads back -/

/-- The text of a rule behind its header. -/
def printedBody (r : Rule) : List Char :=
  (r.pattern.render.toList ++ [' ']) ++ '=' :: '>' :: ' ' :: r.template.render.toList

/-- A rule as it reads back: an empty description is none. -/
def readBack (r : Rule) : Rule := { r with description := r.description.filter (· != "") }

theorem toList_render_of_unnamed (hname : r.name = none) : r.render.toList = r.printedBody := by
  have hheader : r.header = "" := by rw [header, hname]; rfl
  simp [render, hheader, printedBody]

theorem toList_render_of_named {n : String} (h : r.Printable) (hname : r.name = some n) :
    r.render.toList = HeadedLine.written n r.readBack.description ++ r.printedBody := by
  have hne : (n != "") = true := by
    obtain ⟨hn, -⟩ := h.header.name_valid n hname
    simpa using hn
  have hheader : r.header.toList = HeadedLine.written n r.readBack.description := by
    rw [header, hname, Option.filter_some, if_pos hne]
    cases hd : r.description.filter (· != "") with
    | none => simp [hd, readBack, HeadedLine.written]
    | some d => simp [hd, readBack, HeadedLine.written]
  simp [render, hheader, printedBody]

/-- A header may have its description left out. -/
theorem header_readBack (h : r.Printable) :
    HeadedLine.Header r.readBack.name r.readBack.description where
  name_valid := h.header.name_valid
  named hname := by rw [readBack, h.header.named hname]; rfl
  description_valid d hd := h.header.description_valid d (Option.eq_some_of_filter_eq_some hd)

theorem exists_printedBody_eq_cons (r : Rule) :
    ∃ c cs, r.printedBody = c :: cs ∧ isBlank c = false := by
  obtain ⟨c, cs, htext, hc⟩ := r.pattern.exists_render_eq_cons
  exact ⟨c, _, by rw [printedBody, htext]; rfl, hc⟩

theorem newline_notMem_printedBody (r : Rule) : '\n' ∉ r.printedBody := by
  have hpattern := r.pattern.newline_notMem_render
  have htemplate := r.template.newline_notMem_render
  simp [printedBody, hpattern, htemplate]

theorem endsDark_printedBody (r : Rule) : EndsDark r.printedBody := by
  obtain ⟨c, cs, htext, -⟩ := r.template.exists_render_eq_cons
  have hne : r.template.render.toList ≠ [] := by simp [htext]
  have hsplit : r.printedBody =
      (r.pattern.render.toList ++ [' ', '=', '>', ' ']) ++ r.template.render.toList := by
    simp [printedBody]
  rw [hsplit]
  exact r.template.endsDark_render.append_left hne _

/-- The arrow is found between pattern and template. -/
theorem arrow?_printedBody (h : r.Printable) :
    arrow? r.printedBody = some (r.pattern.render.toList ++ [' ']).length := by
  have hlexed := Expr.lexed_toList_render r.pattern
  rw [printedBody, List.append_assoc, List.singleton_append, arrow?,
    arrowFrom_append_of_eq_none h.no_arrow (by simp), Expr.openParens_of_lexed hlexed]
  simp [arrowFrom]

/-- Pattern and template are read behind and in front of a space. -/
theorem parseChars_printed (e : Expr) :
    Expr.parseChars (e.render.toList ++ [' ']) = .ok e ∧
      Expr.parseChars (' ' :: e.render.toList) = .ok e := by
  constructor
  · apply Expr.parseChars_of_lexed
    rw [Expr.lexed_render e (endsWord_blank (by decide) []), lexed_blank (by decide), lexed_nil,
      List.append_nil]
  · apply Expr.parseChars_of_lexed
    rw [lexed_blank (by decide), Expr.lexed_toList_render]

/-- The header is taken off where it was put on, and no other. -/
theorem headedLine_render (h : r.Printable) :
    HeadedLine.ofLine r.render.toList = ⟨r.name, r.readBack.description, r.printedBody⟩ := by
  cases hname : r.name with
  | none =>
    rw [toList_render_of_unnamed hname]
    have hdescription : r.readBack.description = none := by
      rw [readBack, h.header.named hname]
      rfl
    rw [hdescription]
    rcases r.pattern.text_cases with ⟨word, -, hword, htext, -⟩ | ⟨inside, htext⟩
    · have hplain := HeadedLine.ofLine_eq_plain (fun d hd => Expr.isBlank_of_mem_word hword hd)
        (htext ▸ h.no_header hname) ('>' :: ' ' :: r.template.render.toList)
      rw [printedBody, htext, List.append_assoc]
      exact hplain
    · rw [printedBody, htext]
      rfl
  | some n =>
    obtain ⟨c, cs, hbody, hc⟩ := r.exists_printedBody_eq_cons
    have hline := r.newline_notMem_printedBody
    have hheader := header_readBack h
    rw [show r.readBack.name = some n from hname] at hheader
    rw [hbody] at hline
    rw [toList_render_of_named h hname, hbody, HeadedLine.ofLine_written hheader hc hline]

/-- The text of a rule has no blanks around it, and is no comment. -/
theorem exists_render_eq_cons (h : r.Printable) :
    ∃ c cs, r.render.toList = c :: cs ∧ isBlank c = false ∧ c ≠ '#' := by
  cases hname : r.name with
  | none =>
    obtain ⟨c, cs, htext, hc⟩ := r.pattern.exists_render_eq_cons
    refine ⟨c, _, by rw [toList_render_of_unnamed hname, printedBody, htext]; rfl, hc, ?_⟩
    rintro rfl
    exact h.no_comment hname (by rw [htext]; rfl)
  | some n => exact ⟨'@', _, toList_render_of_named h hname, by decide, by decide⟩

theorem endsDark_render (h : r.Printable) : EndsDark r.render.toList := by
  obtain ⟨c, cs, hbody, -⟩ := r.exists_printedBody_eq_cons
  have hne : r.printedBody ≠ [] := by simp [hbody]
  cases hname : r.name with
  | none =>
    rw [toList_render_of_unnamed hname]
    exact r.endsDark_printedBody
  | some n =>
    rw [toList_render_of_named h hname]
    exact r.endsDark_printedBody.append_left hne _

theorem newline_notMem_render (h : r.Printable) : '\n' ∉ r.render.toList := by
  have hbody := r.newline_notMem_printedBody
  cases hname : r.name with
  | none =>
    rw [toList_render_of_unnamed hname]
    exact hbody
  | some n =>
    have hheader := header_readBack h
    have hn : '\n' ∉ n.toList :=
      HeadedLine.notMem_name (hheader.name_valid n hname).2 HeadedLine.isNamePart_newline
    rw [toList_render_of_named h hname, HeadedLine.written]
    cases hd : r.readBack.description with
    | none => simp [hn, hbody]
    | some d => simp [hn, hbody, (hheader.description_valid d hd).2]

/-- **What can be printed reads back.** -/
theorem ofLine_render (h : r.Printable) : ofLine r.render.toList = .ok (some r.readBack) := by
  obtain ⟨c, cs, htext, hc, hcomment⟩ := exists_render_eq_cons h
  have hends := endsDark_render h
  have hheaded := headedLine_render h
  rw [htext] at hends hheaded
  have hsplit : SplitLine.ofLine? r.render.toList = some ⟨r.name, r.readBack.description,
      r.pattern.render.toList ++ [' '], ' ' :: r.template.render.toList⟩ := by
    rw [htext]
    exact SplitLine.ofLine?_of_arrow (trim_of_endsDark hc hends) hcomment hheaded
      (arrow?_printedBody h)
  obtain ⟨hpattern, -⟩ := parseChars_printed r.pattern
  obtain ⟨-, htemplate⟩ := parseChars_printed r.template
  have hr : r.readBack =
      ⟨⟨r.pattern, r.template, false⟩, r.name, r.readBack.description, defaultLimit⟩ := by
    rw [readBack, ← h.limit_eq, ← h.strict_eq]
  rw [ofLine, hsplit]
  simp only [hpattern, htemplate]
  rw [hr]
  rfl

/-- **The text of a rule reads back as the rule.** Whatever text a rule was read from, its own text
is read as the same rule, except that an empty description is none. -/
theorem text_reads_back {text : String} (h : ofText text = .ok r) :
    ofText r.render = .ok { r with description := r.description.filter (· != "") } := by
  obtain ⟨line, hmem, hline⟩ := exists_mem_of_ofText h
  have hprintable := printable_of_ofLine hline fun hnewline => by
    cases not_isEnd_of_mem_linesAt hmem hnewline
  obtain ⟨c, cs, htext, -, -⟩ := exists_render_eq_cons hprintable
  have hnewline := newline_notMem_render hprintable
  have hone := linesAt_newline_of_notMem (by simp [htext]) hnewline
  rw [ofText, hone, ofLines, ofLine_render hprintable]
  rfl

/-- Behind a comment the rule `(=> a_) => >=>` has the name `n` and an empty description. It is cut
at the second of its three arrows, and reads back without the description. -/
theorem arrows_read_back :
    let arrow : Token := ⟨['=', '>'], by decide, by decide⟩
    let pattern : Expr := .list [.atom arrow, .marker (some (.letter 'a' rfl)) .one]
    let template : Expr := .atom ⟨['>', '=', '>'], by decide, by decide⟩
    let r : Rule := ⟨⟨pattern, template, false⟩, some "n", some "", defaultLimit⟩
    ofText "# arrows\n@n \"\":(=> a_)=>>=>" = .ok r ∧ r.render = "@n: (=> a_) => >=>" ∧
      ofText r.render = .ok { r with description := none } := by
  intro arrow pattern template r
  have hlines : linesAt isNewline "# arrows\n@n \"\":(=> a_)=>>=>".toList =
      ["# arrows".toList, "@n \"\":(=> a_)=>>=>".toList] := by decide +kernel
  have hheader : HeadedLine.ofLine "@n \"\":(=> a_)=>>=>".toList =
      ⟨some "n", some "", "(=> a_)".toList ++ '=' :: '>' :: ">=>".toList⟩ := by decide +kernel
  have hsplit : SplitLine.ofLine? "@n \"\":(=> a_)=>>=>".toList =
      some ⟨some "n", some "", "(=> a_)".toList, ">=>".toList⟩ :=
    SplitLine.ofLine?_of_arrow (by decide +kernel) (by decide) hheader (by decide +kernel)
  have hcomment : SplitLine.ofLine? "# arrows".toList = none := by rfl
  have hread : ofText "# arrows\n@n \"\":(=> a_)=>>=>" = .ok r := by
    rw [ofText, hlines, ofLines, ofLine, hcomment, ofLines, ofLine, hsplit]
    rfl
  exact ⟨hread, by decide +kernel, text_reads_back hread⟩

end Rule

end TreeRules
