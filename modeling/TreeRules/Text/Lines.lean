/-!
# Lines of a text

A text read from a file or from standard input ends its lines with a line feed, a carriage return,
or both in that order; `unifyNewlines` writes all three as a line feed. What counts as the end of a
line afterwards depends on the source: standard input ends a line at a line feed only
(`isNewline`), a script also at the other vertical separators (`isLineBreak`).
-/

namespace TreeRules.Text

/-- Write each of the three line ends as a line feed. -/
def unifyNewlines : List Char → List Char
  | [] => []
  | '\r' :: '\n' :: cs => '\n' :: unifyNewlines cs
  | c :: cs => (if c = '\r' then '\n' else c) :: unifyNewlines cs

/-- Does the character end a line of standard input? -/
def isNewline (c : Char) : Bool := c == '\n'

/-- Does the character end a line of a script? The unit separator `U+001F`, alone among the
information separators, does not. -/
def isLineBreak (c : Char) : Bool :=
  let n := c.toNat
  (0x0A ≤ n && n ≤ 0x0D) || (0x1C ≤ n && n ≤ 0x1E) || n == 0x85 || n == 0x2028 || n == 0x2029

/-- The lines of a text, without what ends them. A line end at the very end of the text opens no
further line. -/
def linesAt (isEnd : Char → Bool) : List Char → List (List Char)
  | [] => []
  | c :: cs =>
    if isEnd c then [] :: linesAt isEnd cs
    else
      match linesAt isEnd cs with
      | [] => [[c]]
      | line :: rest => (c :: line) :: rest

/-- No line holds a character that ends lines. -/
theorem not_isEnd_of_mem_linesAt {isEnd : Char → Bool} {cs line : List Char}
    (hline : line ∈ linesAt isEnd cs) {c : Char} (hc : c ∈ line) : isEnd c = false := by
  induction cs generalizing line with
  | nil => simp [linesAt] at hline
  | cons a cs ih =>
    by_cases ha : isEnd a = true
    · simp only [linesAt, ha, if_true, List.mem_cons] at hline
      rcases hline with rfl | hline
      · simp at hc
      · exact ih hline hc
    · simp only [linesAt, ha] at hline
      cases hrest : linesAt isEnd cs with
      | nil =>
        simp only [hrest] at hline
        simp_all
      | cons first rest =>
        simp only [hrest] at hline
        simp only [Bool.false_eq_true, if_false, List.mem_cons] at hline
        rcases hline with rfl | hline
        · rcases List.mem_cons.mp hc with rfl | hc
          · simpa using ha
          · exact ih (hrest ▸ List.mem_cons_self) hc
        · exact ih (hrest ▸ List.mem_cons_of_mem _ hline) hc

end TreeRules.Text
