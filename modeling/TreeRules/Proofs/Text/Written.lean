import TreeRules.Proofs.Text.Dark

/-!
# Lines written one under another

A text is written line by line, with a line feed behind each, which may be missing behind the last
one unless that is empty (`Written`). Where the lines hold no character that ends lines, reading the
text gives them back, whatever else would have ended them (`Written.linesAt_unifyNewlines`). So a
script and standard input are read alike as long as there are line feeds only.
-/

namespace TreeRules.Text

variable {isEnd : Char → Bool} {cs line text : List Char} {lines : List (List Char)}

/-- The text holds these lines, one under another. -/
inductive Written : List (List Char) → List Char → Prop where
  /-- there are no lines -/
  | nil : Written [] []
  /-- the last line, without a line feed -/
  | last {line : List Char} : line ≠ [] → Written [line] line
  /-- a line with a line feed, and the lines below it -/
  | cons {line text : List Char} {lines : List (List Char)} : Written lines text →
    Written (line :: lines) (line ++ '\n' :: text)

/-- Every list of lines can be written, with a line feed behind each. -/
theorem written_flatMap (lines : List (List Char)) :
    Written lines (lines.flatMap (· ++ ['\n'])) := by
  induction lines with
  | nil => exact .nil
  | cons line lines ih =>
    rw [List.flatMap_cons, List.append_assoc, List.singleton_append]
    exact .cons ih

/-- Line feeds between the lines will do, unless the last line is empty. -/
theorem written_intercalate (h : ∀ line ∈ lines.getLast?, line ≠ []) :
    Written lines (['\n'].intercalate lines) := by
  induction lines with
  | nil => exact .nil
  | cons line lines ih =>
    cases lines with
    | nil =>
      rw [List.intercalate_singleton]
      exact .last (h line rfl)
    | cons line' lines =>
      rw [List.intercalate_cons_cons, List.append_assoc, List.singleton_append]
      exact .cons (ih h)

/-- Without carriage returns, all line feeds stay where they are. -/
theorem unifyNewlines_of_notMem (h : '\r' ∉ cs) : unifyNewlines cs = cs := by
  fun_induction unifyNewlines cs with
  | case1 => rfl
  | case2 cs ih => exact absurd List.mem_cons_self h
  | case3 c cs _ ih =>
    rw [List.mem_cons, not_or] at h
    rw [if_neg (Ne.symm h.1), ih h.2]

/-- A line that ends is the first one. -/
theorem linesAt_append_newline (hline : ∀ c ∈ line, isEnd c = false) (hend : isEnd '\n' = true)
    (text : List Char) : linesAt isEnd (line ++ '\n' :: text) = line :: linesAt isEnd text := by
  induction line with
  | nil => rw [List.nil_append, linesAt, if_pos hend]
  | cons c line ih =>
    rw [List.forall_mem_cons] at hline
    have hc : ¬ isEnd c = true := by simp [hline.1]
    rw [List.cons_append, linesAt, if_neg hc, ih hline.2]

namespace Written

theorem exists_line_of_mem (h : Written lines text) {c : Char} (hc : c ∈ text) (hne : c ≠ '\n') :
    ∃ line ∈ lines, c ∈ line := by
  induction h with
  | nil => cases hc
  | last => exact ⟨_, List.mem_singleton_self _, hc⟩
  | cons _ ih =>
    rcases List.mem_append.mp hc with hc | hc
    · exact ⟨_, List.mem_cons_self, hc⟩
    · rcases List.mem_cons.mp hc with rfl | hc
      · exact absurd rfl hne
      · obtain ⟨line, hline, hmem⟩ := ih hc
        exact ⟨line, List.mem_cons_of_mem _ hline, hmem⟩

theorem linesAt_eq (h : Written lines text) (hlines : ∀ line ∈ lines, ∀ c ∈ line, isEnd c = false)
    (hend : isEnd '\n' = true) : linesAt isEnd text = lines := by
  induction h with
  | nil => rfl
  | last hne => exact linesAt_of_forall hne (hlines _ (List.mem_singleton_self _))
  | cons _ ih =>
    rw [List.forall_mem_cons] at hlines
    rw [linesAt_append_newline hlines.1 hend, ih hlines.2]

/-- **Lines that hold no line break are read as they were written**, if of the line breaks the line
feed at least ends a line. -/
theorem linesAt_unifyNewlines (h : Written lines text)
    (hlines : ∀ line ∈ lines, ∀ c ∈ line, isLineBreak c = false) (hend : isEnd '\n' = true)
    (hbreak : ∀ c, isEnd c = true → isLineBreak c = true) :
    linesAt isEnd (unifyNewlines text) = lines := by
  have hreturn : '\r' ∉ text := by
    intro hmem
    obtain ⟨line, hline, hc⟩ := h.exists_line_of_mem hmem (by decide)
    cases hlines line hline _ hc
  rw [unifyNewlines_of_notMem hreturn]
  refine h.linesAt_eq (fun line hline c hc => ?_) hend
  cases hc' : isEnd c with
  | false => rfl
  | true =>
    have hnone := hlines line hline c hc
    rw [hbreak c hc'] at hnone
    cases hnone

end Written

end TreeRules.Text
