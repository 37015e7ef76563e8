import TreeRules.Proofs.Text.OneLine
import TreeRules.Text.Lines

/-!
# The characters between the blanks

`dark` keeps the characters of a text that are not blanks. It sees nothing of how a text is laid
out: blanks around the text and line feeds in it do not matter (`dark_trim`, `dark_oneLine`). The
lines of a text do: where there is more than one line, each of them has fewer such characters than
the text (`length_dark_lt_of_mem_linesAt`), because a text without blanks around it begins on its
first line and ends on its last.
-/

namespace TreeRules.Text

variable {c : Char} {cs line : List Char} {rest : List (List Char)} {isEnd : Char → Bool}

/-- The characters of a text that are not blanks. -/
def dark (cs : List Char) : List Char := cs.filter (!isBlank ·)

@[simp] theorem dark_nil : dark [] = [] := rfl

@[simp] theorem dark_append (cs ds : List Char) : dark (cs ++ ds) = dark cs ++ dark ds :=
  List.filter_append cs ds

theorem dark_blank (hc : isBlank c = true) (cs : List Char) : dark (c :: cs) = dark cs :=
  List.filter_cons_of_neg (by simp [hc])

theorem dark_cons (hc : isBlank c = false) (cs : List Char) : dark (c :: cs) = c :: dark cs :=
  List.filter_cons_of_pos (by simp [hc])

/-- There are no others in a text without blanks. -/
theorem dark_of_forall (h : ∀ c ∈ cs, isBlank c = false) : dark cs = cs :=
  List.filter_eq_self.mpr fun c hc => by simp [h c hc]

theorem dark_oneLine (cs : List Char) : dark (oneLine cs) = dark cs := by
  induction cs with
  | nil => rfl
  | cons c cs ih =>
    cases hc : isBlank c with
    | true => rw [oneLine_cons, dark_blank ((isBlank_spaced c).trans hc), ih, dark_blank hc]
    | false => rw [oneLine_cons_of_dark hc, dark_cons hc, ih, dark_cons hc]

/-! ## Trimming -/

theorem dark_trimLeft (cs : List Char) : dark (trimLeft cs) = dark cs := by
  have hblank : dark (cs.takeWhile isBlank) = [] := by
    refine List.filter_eq_nil_iff.mpr fun c hc => ?_
    simp [List.all_eq_true.mp List.all_takeWhile c hc]
  have hsplit := congrArg dark (List.takeWhile_append_dropWhile (p := isBlank) (l := cs))
  rw [dark_append, hblank, List.nil_append] at hsplit
  exact hsplit

theorem dark_reverse (cs : List Char) : dark cs.reverse = (dark cs).reverse :=
  List.filter_reverse

theorem dark_trim (cs : List Char) : dark (trim cs) = dark cs := by
  have hright := dark_trimLeft (trimLeft cs).reverse
  rw [trim, trimRight, dark_reverse]
  rw [trimLeft] at hright
  rw [hright, dark_reverse, List.reverse_reverse, dark_trimLeft]

/-- Trimming a text takes characters away only. -/
theorem mem_of_mem_trim (hc : c ∈ trim cs) : c ∈ cs := by
  rw [trim, trimRight, List.mem_reverse] at hc
  exact (List.dropWhile_sublist _).mem (List.mem_reverse.mp ((List.dropWhile_sublist _).mem hc))

/-- The last character of the text, if it has one, is no blank. -/
def EndsDark (cs : List Char) : Prop := ∀ c ∈ cs.getLast?, isBlank c = false

/-- What stands at the end of a text ends like it. -/
theorem EndsDark.of_suffix {ds : List Char} (h : EndsDark cs) (hds : ds <:+ cs) :
    EndsDark ds := by
  obtain ⟨front, rfl⟩ := hds
  intro c hc
  refine h c ?_
  rw [List.getLast?_append, hc]
  rfl

theorem endsDark_trim (cs : List Char) : EndsDark (trim cs) := by
  intro c hc
  have hhead := List.head?_dropWhile_not isBlank (trimLeft cs).reverse
  rw [trim, trimRight, List.getLast?_reverse] at hc
  rw [hc] at hhead
  exact hhead

/-- Whatever stands in front of a text, it ends like the text. -/
theorem EndsDark.append_left {ds : List Char} (h : EndsDark ds) (hne : ds ≠ [])
    (cs : List Char) : EndsDark (cs ++ ds) := by
  intro c hc
  have hlast := List.getLast?_eq_some_getLast hne
  rw [List.getLast?_append, hlast, Option.some_or] at hc
  exact h c (hlast.trans hc)

/-- A text that has no blanks around it stays as it is. -/
theorem trim_of_endsDark (hc : isBlank c = false) (h : EndsDark (c :: cs)) :
    trim (c :: cs) = c :: cs := by
  have hleft : trimLeft (c :: cs) = c :: cs := List.dropWhile_cons_of_neg (by simp [hc])
  have hright : (c :: cs).reverse.dropWhile isBlank = (c :: cs).reverse := by
    cases hlast : (c :: cs).reverse with
    | nil => rfl
    | cons d ds =>
      have hd := h d (by rw [← List.head?_reverse, hlast]; rfl)
      exact List.dropWhile_cons_of_neg (by simp [hd])
  rw [trim, hleft, trimRight, hright, List.reverse_reverse]

/-- A text of blanks that ends in no blank is empty. -/
theorem EndsDark.eq_nil (h : EndsDark cs) (htrim : trimLeft cs = []) : cs = [] := by
  cases cs with
  | nil => rfl
  | cons c cs =>
    have hlast := h _ (List.getLast?_eq_some_getLast (List.cons_ne_nil c cs))
    have hall := List.dropWhile_eq_nil_iff.mp htrim
    rw [hall _ (List.getLast_mem (List.cons_ne_nil c cs))] at hlast
    cases hlast

/-- A text without the blanks around it does not begin with one, either. -/
theorem isBlank_of_mem_head?_trim (hc : c ∈ (trim cs).head?) : isBlank c = false := by
  have hfront : trim cs <+: trimLeft cs := by
    have hback := List.dropWhile_suffix isBlank (l := (trimLeft cs).reverse)
    rw [← List.reverse_prefix, List.reverse_reverse] at hback
    exact hback
  obtain ⟨back, hback⟩ := hfront
  have hhead := List.head?_dropWhile_not isBlank cs
  rw [← trimLeft, ← hback, List.head?_append, hc] at hhead
  exact hhead

/-- Nothing is left to trim. -/
theorem trim_trim (cs : List Char) : trim (trim cs) = trim cs := by
  cases htrim : trim cs with
  | nil => rfl
  | cons c ds =>
    have hends := endsDark_trim cs
    rw [htrim] at hends
    exact trim_of_endsDark (isBlank_of_mem_head?_trim (by rw [htrim]; rfl)) hends

theorem trim_oneLine_of_trim_eq_cons {ds : List Char} (h : trim cs = c :: ds) :
    trim (oneLine cs) = c :: oneLine ds := by
  have hc : isBlank c = false := isBlank_of_mem_head?_trim (by rw [h]; rfl)
  rw [trim_oneLine, h, oneLine_cons_of_dark hc]

/-! ## Lines -/

/-- The first line starts the text. -/
theorem isPrefix_of_linesAt_eq_cons (h : linesAt isEnd cs = line :: rest) : line <+: cs := by
  induction cs generalizing line rest with
  | nil => cases h
  | cons c cs ih =>
    rw [linesAt] at h
    split at h
    · cases h
      exact List.nil_prefix
    · split at h
      · cases h
        exact ⟨cs, rfl⟩
      · rename_i hlines
        cases h
        exact List.cons_prefix_cons.mpr ⟨rfl, ih hlines⟩

/-- A line is a piece of the text. -/
theorem isInfix_of_mem_linesAt (h : line ∈ linesAt isEnd cs) : line <:+: cs := by
  induction cs generalizing line with
  | nil => cases h
  | cons c cs ih =>
    cases hlines : linesAt isEnd (c :: cs) with
    | nil =>
      rw [hlines] at h
      cases h
    | cons first others =>
      have hfirst := isPrefix_of_linesAt_eq_cons hlines
      have hothers : ∀ line ∈ others, line ∈ linesAt isEnd cs := by
        rw [linesAt] at hlines
        split at hlines
        · cases hlines
          exact fun _ hmem => hmem
        · split at hlines
          · cases hlines
            exact fun _ hmem => absurd hmem List.not_mem_nil
          · rename_i heq
            cases hlines
            intro line hmem
            rw [heq]
            exact List.mem_cons_of_mem _ hmem
      rw [hlines] at h
      rcases List.mem_cons.mp h with rfl | h
      · exact hfirst.isInfix
      · exact (ih (hothers line h)).trans (List.suffix_cons c cs).isInfix

/-- A text in which no line ends is one line. -/
theorem linesAt_of_forall (hne : cs ≠ []) (h : ∀ c ∈ cs, isEnd c = false) :
    linesAt isEnd cs = [cs] := by
  induction cs with
  | nil => exact absurd rfl hne
  | cons c cs ih =>
    have hc : ¬ isEnd c = true := by simp [h c List.mem_cons_self]
    rw [linesAt, if_neg hc]
    cases cs with
    | nil => rfl
    | cons d cs => rw [ih (List.cons_ne_nil d cs) fun c hc => h c (List.mem_cons_of_mem _ hc)]

/-- A text without line feeds is one line. -/
theorem linesAt_newline_of_notMem (hne : cs ≠ []) (h : '\n' ∉ cs) :
    linesAt isNewline cs = [cs] := by
  refine linesAt_of_forall hne fun c hc => ?_
  have hc' : c ≠ '\n' := fun heq => h (heq ▸ hc)
  simpa [isNewline] using hc'

/-- **Of several lines none is the whole text**, even without the blanks. -/
theorem length_dark_lt_of_mem_linesAt (hnewline : '\n' ∈ trim cs)
    (hline : line ∈ linesAt isNewline (trim cs)) : (dark line).length < (dark cs).length := by
  obtain ⟨front, back, hsplit⟩ := isInfix_of_mem_linesAt hline
  have hdark : dark cs = dark front ++ dark line ++ dark back := by
    rw [← dark_append, ← dark_append, hsplit, dark_trim]
  have hnot : '\n' ∉ line := by
    intro hmem
    have hend := not_isEnd_of_mem_linesAt hline hmem
    cases hend
  rw [← hsplit, List.mem_append, List.mem_append] at hnewline
  rw [hdark, List.length_append, List.length_append]
  rcases hnewline with (hmem | hmem) | hmem
  · -- the text begins in front of the line
    cases front with
    | nil => cases hmem
    | cons c front =>
      have hc : isBlank c = false := isBlank_of_mem_head?_trim (by rw [← hsplit]; rfl)
      rw [dark_cons hc, List.length_cons]
      omega
  · exact absurd hmem hnot
  · -- the text ends behind the line
    have hne : back ≠ [] := List.ne_nil_of_mem hmem
    have hends : EndsDark back := (endsDark_trim cs).of_suffix ⟨front ++ line, hsplit⟩
    have hlast := hends _ (List.getLast?_eq_some_getLast hne)
    rw [← List.dropLast_concat_getLast hne, dark_append, dark_cons hlast, List.length_append,
      List.length_cons]
    omega

end TreeRules.Text
