import TreeRules.Proofs.Expr.Cuts
import TreeRules.Proofs.Rule.TopLevel

/-!
# Where the arrow of a text of trees stands

A text of trees is a rule by its leaves at top level, and by their names alone: the underscores of a
variable make no arrow, and neither does what is in a list (`isArrowLeaf_iff`). The arrow of the
text is the first one in the name of the first such leaf. For the text can be cut around the leaf
(`exists_cut_around_leaf`); the trees in front of it have no arrow and leave no list open, so that
the arrow is looked for in the leaf, at its own depth (`arrow?_of_parted`); and in a word it is
found where the two characters first stand side by side (`arrowFrom_first`).
-/

namespace TreeRules

open Text

variable {cs front back before after word : List Char} {x : Token} {e : Expr}
  {es es₁ es₂ : List Expr}

/-! ## Names -/

namespace Expr

/-- The name of a leaf. Lists have no name, and neither have wildcards. -/
def name? : Expr → Option Token
  | .atom x => some x
  | .list _ => none
  | .marker x _ => x

/-- Is it a leaf with an arrow in its name? -/
def NamesArrow (e : Expr) : Prop := ∃ x ∈ e.name?, ['=', '>'] <:+: x.chars

/-- What has a name is a leaf: its text is the name, with underscores behind it if it is a
variable. -/
theorem exists_marks_of_name? (hx : e.name? = some x) :
    ∃ k, e.render.toList = x.chars ++ List.replicate k '_' ∧
      e.spelling = [.word e.render.toList] ∧ e.isList = false := by
  cases e with
  | atom y =>
    obtain rfl : y = x := Option.some.inj hx
    refine ⟨0, ?_, ?_, rfl⟩
    · rw [render_atom, Token.text, String.toList_ofList, List.replicate_zero, List.append_nil]
    · rw [render_atom, Token.text, String.toList_ofList, spelling_atom]
  | list cs => cases hx
  | marker y s =>
    obtain rfl : y = some x := hx
    refine ⟨s.underscores, ?_, ?_, rfl⟩
    · rw [render_marker, String.toList_ofList]
      rfl
    · rw [render_marker, String.toList_ofList, spelling_marker]

/-- There is no arrow among underscores. -/
theorem arrowFrom_marks (depth : Int) (pos k : Nat) :
    arrowFrom depth pos (List.replicate k '_') = none := by
  induction k generalizing pos with
  | zero => rfl
  | succ k ih =>
    rw [List.replicate_succ, arrowFrom_cons_of_ne_paren (by decide) (by decide),
      if_neg fun h => absurd h.2.1 (by decide), ih]

/-- **Underscores make no arrow**: only the name can have one. -/
theorem isInfix_append_marks_iff (hname : word.all isWordPart = true) (k : Nat) :
    ['=', '>'] <:+: word ++ List.replicate k '_' ↔ ['=', '>'] <:+: word := by
  refine ⟨fun h => ?_, fun h => h.trans (List.prefix_append _ _).isInfix⟩
  have hall : (word ++ List.replicate k '_').all isWordPart = true := by
    rw [List.all_append, hname, Bool.true_and, List.all_eq_true]
    intro c hc
    rw [List.eq_of_mem_replicate hc]
    decide
  have hsome := (isSome_arrowFrom_word_iff hall 0).mpr h
  refine (isSome_arrowFrom_word_iff hname 0).mp ?_
  cases hfound : arrowFrom 0 0 word with
  | some offset => rfl
  | none =>
    have hmarks : (List.replicate k '_').head? ≠ some '>' := by
      cases k <;> simp [List.replicate_succ]
    rw [arrowFrom_append_of_eq_none hfound fun _ => hmarks, arrowFrom_marks] at hsome
    cases hsome

/-- A leaf has an arrow in its text exactly if it has one in its name. -/
theorem isArrowLeaf_iff : e.IsArrowLeaf ↔ e.NamesArrow := by
  cases hname : e.name? with
  | some x =>
    obtain ⟨k, htext, -, hleaf⟩ := exists_marks_of_name? hname
    rw [IsArrowLeaf, htext, isInfix_append_marks_iff (all_isWordPart_chars x)]
    simp [NamesArrow, hname, hleaf]
  | none =>
    have hnames : ¬ e.NamesArrow := by simp [NamesArrow, hname]
    refine iff_of_false ?_ hnames
    rintro ⟨hleaf, harrow⟩
    cases e with
    | atom y => cases hname
    | list cs => cases hleaf
    | marker y s =>
      obtain rfl : y = none := hname
      have hmarks := (isInfix_append_marks_iff (rfl : [].all isWordPart = true) s.underscores).mp
        (by simpa [markerChars] using harrow)
      simp at hmarks

end Expr

/-! ## The offset of the arrow -/

/-- Outside lists the arrow of a word is found where the two characters first stand side by side. -/
theorem arrowFrom_first (hbefore : before.all isWordPart = true)
    (hfirst : ¬ ['=', '>'] <:+: before) (pos : Nat) (after : List Char) :
    arrowFrom 0 pos (before ++ '=' :: '>' :: after) = some (pos + before.length) := by
  have hnone : arrowFrom 0 pos before = none := by
    rw [← isSome_arrowFrom_word_iff hbefore pos] at hfirst
    simpa using hfirst
  rw [arrowFrom_append_of_eq_none hnone (by simp), openParens_word hbefore,
    arrowFrom_cons_of_ne_paren (by decide) (by decide)]
  simp

/-- The first arrow of a word can be pointed out. -/
theorem exists_first_arrow (hword : word.all isWordPart = true) (h : ['=', '>'] <:+: word) :
    ∃ before after, word = before ++ '=' :: '>' :: after ∧ before.all isWordPart = true ∧
      ¬ ['=', '>'] <:+: before := by
  obtain ⟨offset, hoffset⟩ :=
    Option.isSome_iff_exists.mp ((isSome_arrowFrom_word_iff hword 0).mpr h)
  obtain ⟨before, after, rfl, -, hnone⟩ := exists_front_of_arrow? hoffset
  rw [List.all_append, Bool.and_eq_true] at hword
  refine ⟨before, after, rfl, hword.1, fun hinfix => ?_⟩
  have hsome := (isSome_arrowFrom_word_iff hword.1 0).mpr hinfix
  rw [← arrow?, hnone] at hsome
  cases hsome

/-- Behind a text without an arrow that leaves no list open the arrow is looked for as if the text
began there, unless the cut goes through a word. -/
theorem arrow?_of_parted (hnone : arrow? front = none) (hopen : openParens front = 0)
    (hparted : Parted front back) : arrow? (front ++ back) = arrowFrom 0 front.length back := by
  have hcut : front.getLast? = some '=' → back.head? ≠ some '>' := by
    intro hlast hhead
    rcases hparted with hfront | hback
    · exact absurd (hfront '=' hlast) (by decide)
    · exact absurd (hback '>' hhead) (by decide)
  rw [arrow?, arrowFrom_append_of_eq_none hnone hcut, hopen, Int.add_zero, Nat.zero_add]

namespace Expr

/-- **A text of trees can be cut around a leaf**: the text of the leaf stands in it, and the trees
in front of it and behind it are read in what is in front of the leaf and behind it. -/
theorem exists_cut_around_leaf (h : parseAllChars cs = .ok (es₁ ++ e :: es₂))
    (hleaf : e.spelling = [.word word]) :
    ∃ front back, cs = front ++ (word ++ back) ∧ Parted front (word ++ back) ∧ EndsWord back ∧
      parseAllChars front = .ok es₁ ∧ parseAllChars back = .ok es₂ := by
  have hlexed : lexed cs = spellings es₁ ++ .word word :: spellings es₂ := by
    rw [lexed_of_parseAllChars h, spellings_append, spellings_cons, hleaf, List.singleton_append]
  obtain ⟨front, back, rfl, hsound, hfront, hback, hes₁, hes₂⟩ := exists_cut_around_lexed hlexed
  exact ⟨front, back, rfl, hfront, Parted.endsWord hback hsound.1 hsound.2,
    parseAllChars_of_lexed hes₁, parseAllChars_of_lexed hes₂⟩

/-- A text of trees has no arrow exactly if no leaf at top level has one in its name. -/
theorem arrow?_eq_none_iff (h : parseAllChars cs = .ok es) :
    arrow? cs = none ↔ ∀ e ∈ es, ¬ e.NamesArrow := by
  have hsome := isSome_arrow?_iff (lexed_of_parseAllChars h)
  simp only [isArrowLeaf_iff] at hsome
  rw [← Option.not_isSome_iff_eq_none, hsome, not_exists]
  simp

/-! ## The first leaf -/

/-- **The arrow of a text of trees** is the first one in the name of the first leaf at top level
that has one, wherever that leaf stands, and whatever the lists hold; and there is none if there is
no such leaf. So a line of trees that begins neither like a comment nor like a header is a rule
exactly if there is one. -/
theorem arrow_stands_in_first_leaf {s : String} (h : parseAll s = .ok es) :
    (arrow? s.toList = none ↔ ∀ e ∈ es, ¬ e.NamesArrow) ∧
      (∀ es₁ e es₂, es = es₁ ++ e :: es₂ → (∀ e' ∈ es₁, ¬ e'.NamesArrow) →
        ∀ x ∈ e.name?, ['=', '>'] <:+: x.chars →
          ∃ front before after back : List Char,
            s.toList = front ++ (e.render.toList ++ back) ∧
            Parted front (e.render.toList ++ back) ∧ EndsWord back ∧
            parseAllChars front = .ok es₁ ∧ parseAllChars back = .ok es₂ ∧
            x.chars = before ++ '=' :: '>' :: after ∧ ¬ ['=', '>'] <:+: before ∧
            arrow? s.toList = some (front.length + before.length)) ∧
      ∀ c cs, trim s.toList = c :: cs → c ≠ '#' → c ≠ '@' →
        (isRuleLine s.toList = true ↔ ∃ e ∈ es, e.NamesArrow) := by
  refine ⟨arrow?_eq_none_iff h, fun es₁ e es₂ hes hnone x hx harrow => ?_,
    fun c cs htrim hcomment hheader => ?_⟩
  · subst hes
    obtain ⟨k, htext, hspelling, -⟩ := exists_marks_of_name? hx
    obtain ⟨front, back, hcut, hparted, hback, hfront, hrest⟩ := exists_cut_around_leaf h hspelling
    obtain ⟨before, after, hchars, hbefore, hfirst⟩ :=
      exists_first_arrow (all_isWordPart_chars x) harrow
    refine ⟨front, before, after, back, hcut, hparted, hback, hfront, hrest, hchars, hfirst, ?_⟩
    have hleaf : e.render.toList ++ back =
        before ++ '=' :: '>' :: (after ++ (List.replicate k '_' ++ back)) := by
      rw [htext, hchars]
      simp
    rw [hcut, arrow?_of_parted ((arrow?_eq_none_iff hfront).mpr hnone)
      (openParens_of_parseAllChars hfront) hparted, hleaf, arrowFrom_first hbefore hfirst]
  · have hlexed : lexed (trim s.toList) = spellings es := by
      rw [lexed_trim]
      exact lexed_of_parseAllChars h
    simp only [isRuleLine_iff_exists hlexed htrim hcomment hheader, isArrowLeaf_iff]

/-- In `(=> a) x ==>b__ c=>` the first arrow is in a list, and the last one in a leaf behind that of
the variable. -/
theorem arrow_stands_behind_list :
    let text := "(=> a) x ==>b__ c=>"
    let b : Token := ⟨['=', '=', '>', 'b'], by decide, by decide⟩
    let es₁ : List Expr := [.list [.atom ⟨['=', '>'], by decide, by decide⟩,
      .atom (.letter 'a' rfl)], .atom (.letter 'x' rfl)]
    let e : Expr := .marker (some b) .oneOrMore
    let es₂ : List Expr := [.atom ⟨['c', '=', '>'], by decide, by decide⟩]
    parseAll text = .ok (es₁ ++ e :: es₂) ∧ (∀ e' ∈ es₁, ¬ e'.NamesArrow) ∧ e.NamesArrow ∧
      arrow? text.toList = some 10 ∧ isRuleLine text.toList = true ∧
      ∃ front before after : List Char, parseAllChars front = .ok es₁ ∧
        b.chars = before ++ '=' :: '>' :: after ∧ front.length + before.length = 10 := by
  intro text b es₁ e es₂
  have hread : parseAll text = .ok (es₁ ++ e :: es₂) := by decide +kernel
  have harrow : ['=', '>'] <:+: b.chars := by decide
  have hearlier : ∀ e' ∈ es₁, ¬ e'.NamesArrow := by
    have hlist : ∀ cs : List Expr, ¬ (list cs).NamesArrow := by simp [NamesArrow, name?]
    have hatom : ¬ ['=', '>'] <:+: (Token.letter 'x' rfl).chars := by decide
    rintro e' he' ⟨x, hx, hinfix⟩
    rcases List.mem_cons.mp he' with rfl | he'
    · exact hlist _ ⟨x, hx, hinfix⟩
    · obtain rfl := List.mem_singleton.mp he'
      obtain rfl := Option.some.inj hx
      exact hatom hinfix
  have hoffset : arrow? text.toList = some 10 := by decide +kernel
  have htrim : trim text.toList = '(' :: "=> a) x ==>b__ c=>".toList := by decide +kernel
  obtain ⟨-, hfirst, hline⟩ := arrow_stands_in_first_leaf hread
  obtain ⟨front, before, after, -, -, -, -, hfront, -, hchars, -, harrow?⟩ :=
    hfirst es₁ e es₂ rfl hearlier b rfl harrow
  have hrule := (hline '(' _ htrim (by decide) (by decide)).mpr
    ⟨e, List.mem_append_right es₁ List.mem_cons_self, b, rfl, harrow⟩
  rw [hoffset] at harrow?
  exact ⟨hread, hearlier, ⟨b, rfl, harrow⟩, hoffset, hrule, front, before, after, hfront, hchars,
    (Option.some.inj harrow?).symm⟩

end Expr

end TreeRules
