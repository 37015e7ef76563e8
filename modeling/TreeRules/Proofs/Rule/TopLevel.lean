import TreeRules.Proofs.Rule.RoundTrip

/-!
# Arrows at top level

A text of trees has an arrow outside parentheses just if one of the trees is a leaf that has an
arrow in its text (`isSome_arrow?_iff`). What is in a list is passed over, for at every depth of it
an arrow is part of a word (`arrowAmong_spelling_of_pos`); and behind the list the depth is what it
was in front of it.

So trees among which there is no such leaf are no rule, whatever their lists hold
(`isRuleLine_iff_exists`).
-/

namespace TreeRules

open Text

variable {c : Char} {cs line : List Char} {depth : Int} {e : Expr} {es : List Expr}

/-! ## Words -/

/-- Inside a list a word has no arrow. -/
theorem arrowFrom_word_of_pos (hdepth : 0 < depth) (hword : cs.all isWordPart = true) (pos : Nat) :
    arrowFrom depth pos cs = none := by
  induction cs generalizing pos with
  | nil => rfl
  | cons c cs ih =>
    rw [List.all_cons, Bool.and_eq_true, isWordPart_iff] at hword
    rw [arrowFrom_cons_of_ne_paren hword.1.2.1 hword.1.2.2, if_neg fun h => by omega, ih hword.2]

/-- Outside lists a word has one if the two characters stand in it side by side. -/
theorem isSome_arrowFrom_word_iff (hword : cs.all isWordPart = true) (pos : Nat) :
    (arrowFrom 0 pos cs).isSome = true ↔ ['=', '>'] <:+: cs := by
  induction cs generalizing pos with
  | nil => simp [arrowFrom]
  | cons c cs ih =>
    rw [List.all_cons, Bool.and_eq_true, isWordPart_iff] at hword
    rw [arrowFrom_cons_of_ne_paren hword.1.2.1 hword.1.2.2, List.infix_cons_iff]
    split
    · rename_i harrow
      obtain ⟨-, rfl, hhead⟩ := harrow
      obtain ⟨ds, rfl⟩ := List.head?_eq_some_iff.mp hhead
      simp
    · rename_i hnot
      refine (ih hword.2 (pos + 1)).trans (or_iff_right fun hprefix => hnot ?_).symm
      obtain ⟨more, heq⟩ := hprefix
      cases heq
      exact ⟨Int.le_refl 0, rfl, rfl⟩

namespace Expr

/-! ## Trees -/

mutual

/-- Inside a list a tree has no arrow, and leaves the depth as it is. -/
theorem arrowAmong_spelling_of_pos {depth : Int} (hdepth : 0 < depth) (e : Expr)
    (ts : List Lexeme) : arrowAmong depth (e.spelling ++ ts) = arrowAmong depth ts := by
  match e with
  | .atom x =>
    rw [spelling_atom, List.singleton_append, arrowAmong,
      arrowFrom_word_of_pos hdepth (all_isWordPart_chars x)]
    rfl
  | .marker x s =>
    rw [spelling_marker, List.singleton_append, arrowAmong,
      arrowFrom_word_of_pos hdepth (all_isWordPart_markerChars x s)]
    rfl
  | .list cs =>
    rw [spelling_list, List.cons_append, List.append_assoc, arrowAmong,
      arrowAmong_spellings_of_pos (by omega) cs, List.singleton_append, arrowAmong,
      Int.add_sub_cancel]

/-- Inside a list trees have no arrow, and leave the depth as it is. -/
theorem arrowAmong_spellings_of_pos {depth : Int} (hdepth : 0 < depth) (es : List Expr)
    (ts : List Lexeme) : arrowAmong depth (spellings es ++ ts) = arrowAmong depth ts := by
  match es with
  | [] => rw [spellings_nil, List.nil_append]
  | e :: es =>
    rw [spellings_cons, List.append_assoc, arrowAmong_spelling_of_pos hdepth e,
      arrowAmong_spellings_of_pos hdepth es]

end

/-- Is it a leaf with an arrow in its text? -/
def IsArrowLeaf (e : Expr) : Prop := e.isList = false ∧ ['=', '>'] <:+: e.render.toList

/-- Outside lists a tree has an arrow if it is a leaf with one, and leaves the depth as it is. -/
theorem arrowAmong_spelling_iff (e : Expr) (ts : List Lexeme) :
    arrowAmong 0 (e.spelling ++ ts) = true ↔ e.IsArrowLeaf ∨ arrowAmong 0 ts = true := by
  cases e with
  | list cs =>
    rw [spelling_list, List.cons_append, List.append_assoc, arrowAmong,
      arrowAmong_spellings_of_pos (by decide) cs, List.singleton_append, arrowAmong]
    exact (or_iff_right fun h => absurd h.1 (by simp [isList])).symm
  | atom x =>
    rw [spelling_atom, List.singleton_append, arrowAmong, Bool.or_eq_true,
      isSome_arrowFrom_word_iff (all_isWordPart_chars x)]
    simp [IsArrowLeaf, isList, Token.text]
  | marker x s =>
    rw [spelling_marker, List.singleton_append, arrowAmong, Bool.or_eq_true,
      isSome_arrowFrom_word_iff (all_isWordPart_markerChars x s)]
    simp [IsArrowLeaf, isList]

theorem arrowAmong_spellings_iff (es : List Expr) :
    arrowAmong 0 (spellings es) = true ↔ ∃ e ∈ es, e.IsArrowLeaf := by
  induction es with
  | nil => simp [arrowAmong]
  | cons e es ih => simp [arrowAmong_spelling_iff, ih]

/-- **A text of trees has an arrow if one of the trees is a leaf with one.** -/
theorem isSome_arrow?_iff (h : lexed cs = spellings es) :
    (arrow? cs).isSome = true ↔ ∃ e ∈ es, e.IsArrowLeaf := by
  rw [arrow?, isSome_arrowFrom, ← lexed_eq_tokens, h, arrowAmong_spellings_iff]

end Expr

/-! ## Lines -/

/-- Only a line that begins with the mark of a header has one. -/
theorem HeadedLine.ofLine_of_ne (hmark : c ≠ '@') (cs : List Char) :
    HeadedLine.ofLine (c :: cs) = .plain (c :: cs) := by
  rcases HeadedLine.ofLine_cases (c :: cs) with hplain | ⟨name, rest, heq, -⟩
  · exact hplain
  · exact absurd (List.cons.inj heq).1 hmark

/-- **A text of trees is a rule if one of the trees is a leaf with an arrow**, unless it begins like
a comment or a header. -/
theorem isRuleLine_iff_exists (h : lexed (trim line) = Expr.spellings es)
    (htrim : trim line = c :: cs) (hcomment : c ≠ '#') (hheader : c ≠ '@') :
    isRuleLine line = true ↔ ∃ e ∈ es, e.IsArrowLeaf := by
  rw [isRuleLine_iff, ← Expr.isSome_arrow?_iff h, htrim, HeadedLine.ofLine_of_ne hheader]
  simp [HeadedLine.plain, hcomment]

end TreeRules
