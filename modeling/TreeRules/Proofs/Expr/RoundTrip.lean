import TreeRules.Proofs.Expr.Spelling

/-!
# Reading undoes rendering

The text of a tree has the lexemes that spell the tree (`lexed_render`): names hold no character
that would end them, and the words of two children are kept apart by the space between them. With
what follows the text unknown, this holds as long as it ends a word. So the text of one tree is read
as that tree, and the texts of several trees as these trees, whatever blanks separate them
(`parseAll_intercalate`).
-/

namespace TreeRules

namespace Expr

variable {e : Expr} {es : List Expr} {sep : String}

/-! ## Words -/

/-- Characters of a name are word characters. -/
theorem isWordPart_of_isNameChar {c : Char} (hc : isNameChar c = true) : isWordPart c = true := by
  simp only [isNameChar, isReserved, Bool.not_eq_true', Bool.or_eq_false_iff] at hc
  simp [isWordPart, hc]

theorem all_isWordPart_chars (x : Token) : x.chars.all isWordPart = true := by
  rw [List.all_eq_true]
  intro c hc
  exact isWordPart_of_isNameChar (List.all_eq_true.mp x.allowed c hc)

theorem all_isWordPart_markerChars (x : Option Token) (s : Span) :
    (markerChars x s).all isWordPart = true := by
  rw [markerChars, List.all_append, Bool.and_eq_true]
  constructor
  · cases x with
    | none => rfl
    | some x => exact all_isWordPart_chars x
  · cases s <;> decide

theorem markerChars_ne_nil (x : Option Token) (s : Span) : markerChars x s ≠ [] := by
  rw [markerChars]
  cases s <;> simp [Span.underscores]

/-! ## Texts -/

/-- The text of the tree has the lexemes that spell it, if what follows ends a word. -/
def Spelled (e : Expr) : Prop :=
  ∀ ⦃rest⦄, EndsWord rest → lexed (e.render.toList ++ rest) = e.spelling ++ lexed rest

/-- The texts of trees with blanks between them have the lexemes that spell the trees. -/
theorem lexed_intercalate (hne : sep ≠ "") (hsep : sep.toList.all Text.isBlank = true)
    (h : ∀ e ∈ es, e.Spelled) {rest : List Char} (hrest : EndsWord rest) :
    lexed ((sep.intercalate (es.map render)).toList ++ rest) = spellings es ++ lexed rest := by
  have hgap : sep.toList ≠ [] := mt String.toList_eq_nil_iff.mp hne
  induction es with
  | nil => simp
  | cons e es ih =>
    have he : e.Spelled := h e (List.mem_cons_self ..)
    have hes := ih fun e' he' => h e' (List.mem_cons_of_mem e he')
    cases es with
    | nil => simpa using he hrest
    | cons e' es =>
      -- the separator ends the word in front of it, and is itself dropped
      rw [List.map_cons] at hes
      rw [List.map_cons, List.map_cons, String.intercalate_cons_cons, String.toList_append,
        String.toList_append, List.append_assoc, List.append_assoc,
        he (endsWord_blanks hgap hsep _), lexed_blanks hsep, hes, spellings_cons e,
        List.append_assoc]

mutual

/-- The text of a tree has the lexemes that spell the tree. -/
theorem lexed_render (e : Expr) : e.Spelled := by
  intro rest hrest
  match e with
  | .atom x =>
    rw [render_atom, spelling_atom, Token.text, String.toList_ofList]
    exact lexed_word x.ne_nil (all_isWordPart_chars x) hrest
  | .marker x s =>
    rw [render_marker, spelling_marker, String.toList_ofList]
    exact lexed_word (markerChars_ne_nil x s) (all_isWordPart_markerChars x s) hrest
  | .list cs =>
    have hclose : EndsWord (')' :: rest) := endsWord_cons (by decide) rest
    have hspace : (" " : String) ≠ "" := by decide
    have hchildren := lexed_intercalate hspace (by decide) (lexed_render_of_mem cs) hclose
    calc lexed ((Expr.list cs).render.toList ++ rest)
        = lexed ('(' :: ((" ".intercalate (cs.map render)).toList ++ ')' :: rest)) := by
          rw [render_list, renderAll_eq_intercalate, String.toList_append, String.toList_append,
            List.append_assoc, List.append_assoc]
          rfl
      _ = .opening :: (spellings cs ++ .closing :: lexed rest) := by
          rw [lexed_opening, hchildren, lexed_closing]
      _ = (Expr.list cs).spelling ++ lexed rest := by
          rw [spelling_list, List.cons_append, List.append_assoc]
          rfl

/-- The texts of several trees have the lexemes that spell the trees. -/
theorem lexed_render_of_mem (es : List Expr) : ∀ e ∈ es, e.Spelled := by
  match es with
  | [] =>
    intro e he
    cases he
  | e :: es => exact List.forall_mem_cons.mpr ⟨lexed_render e, lexed_render_of_mem es⟩

end

/-- By itself the text of a tree spells the tree. -/
theorem lexed_toList_render (e : Expr) : lexed e.render.toList = e.spelling := by
  simpa using lexed_render e endsWord_nil

/-! ## Reading -/

theorem parse_render (e : Expr) : parse e.render = .ok e :=
  parseChars_of_lexed (lexed_toList_render e)

/-- The texts of trees with blanks between them are read as these trees. -/
theorem parseAll_intercalate (hne : sep ≠ "") (hsep : sep.toList.all Text.isBlank = true)
    (es : List Expr) : parseAll (sep.intercalate (es.map render)) = .ok es := by
  refine parseAllChars_of_lexed ?_
  simpa using lexed_intercalate hne hsep (lexed_render_of_mem es) endsWord_nil

/-- **Reading undoes rendering.** The text of a tree is read as the tree, and the texts of several
trees, joined by single spaces or one to a line, are read as these trees in order. -/
theorem reading_undoes_rendering :
    (∀ e : Expr, parse e.render = .ok e) ∧
      ∀ es : List Expr, parseAll (" ".intercalate (es.map render)) = .ok es ∧
        parseAll ("\n".intercalate (es.map render)) = .ok es :=
  ⟨parse_render, fun es =>
    ⟨parseAll_intercalate (by decide) (by decide) es,
      parseAll_intercalate (by decide) (by decide) es⟩⟩

end Expr

end TreeRules
