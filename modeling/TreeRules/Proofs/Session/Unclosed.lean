import TreeRules.Proofs.Expr.Feeding
import TreeRules.Proofs.Session.Groups
import TreeRules.Proofs.Session.Lines

/-!
# Texts that lack closing parentheses

The prompt counts parentheses, and the reader of trees keeps the lists that are open. Where every
lexeme is fed, the two come to the same number (`Expr.depth_of_feedAll_lexemes`). So a text that
fails at its end lacks exactly as many closing parentheses as the prompt counts: with all of them
put behind, it is a text of trees, and with fewer it still fails at its end
(`Expr.closings_of_parseAllChars`).

A text that lacks nothing else (`Unclosed`) has parentheses to close, then, and what the session is
given has none (`Prompt.Asking.openParens_le`). So no such text is given to the session
(`prompt_counts_open_lists`).
-/

namespace TreeRules

variable {l : Lexeme} {cs line : List Char} {t : Located} {ts : List Located} {err : ReadError}

/-! ## Counting in lexemes -/

/-- In the text of a lexeme as many parentheses are counted as it changes the number of open lists
by. -/
theorem openParens_chars (hl : l.Sound) : openParens l.chars = l.rise := by
  cases l with
  | opening => rfl
  | closing => rfl
  | word word => exact openParens_word hl.2

theorem openParens_replicate_closing (n : Nat) : openParens (List.replicate n ')') = -n := by
  rw [openParens, List.count_replicate_self, List.count_replicate]
  simp

/-- Closing parentheses end the word in front of them. -/
theorem endsWord_replicate_closing (n : Nat) : EndsWord (List.replicate n ')') := by
  cases n with
  | zero => exact endsWord_nil
  | succ n => exact endsWord_cons (by decide) _

namespace Expr

variable {u v : Unfinished} {es : List Expr}

/-- **The number of open lists is counted in the text.** -/
theorem depth_of_feedAll (hts : ∀ t ∈ ts, t.lexeme.Sound) (h : u.feedAll ts = .ok v) :
    (v.depth : Int) = u.depth + openParens (ts.flatMap fun t => t.lexeme.chars) := by
  induction ts generalizing u with
  | nil =>
    cases h
    exact (Int.add_zero _).symm
  | cons t ts ih =>
    rw [List.forall_mem_cons] at hts
    obtain ⟨w, hfeed, hrest⟩ := Unfinished.exists_feed_of_feedAll h
    rw [ih hts.2 hrest, Unfinished.depth_of_feed hfeed, List.flatMap_cons, openParens_append,
      openParens_chars hts.1, Int.add_assoc]

theorem depth_of_feedAll_lexemes (h : Unfinished.start.feedAll (lexemes cs) = .ok v) :
    (v.depth : Int) = openParens cs := by
  rw [depth_of_feedAll (fun _ => sound_of_mem_lexemes) h, openParens_eq_flatMap_lexed cs, lexed,
    List.flatMap_map]
  exact Int.zero_add _

/-! ## What is missing -/

/-- A text that fails at its end has been fed to the last lexeme, and lists are open. -/
theorem exists_open_lists (h : parseAllChars cs = .error err) (hend : err.position = cs.length) :
    ∃ v, Unfinished.start.feedAll (lexemes cs) = .ok v ∧ 0 < v.depth ∧ err.kind = .unbalanced := by
  obtain ⟨t, ht, d, hrefused⟩ | ⟨v, hv, hdepth, rfl⟩ :=
    readAll_eq_error (fun _ => sound_of_mem_lexemes) h
  · exact absurd hend (Nat.ne_of_lt (hrefused.lt_length ht))
  · exact ⟨v, hv, hdepth, rfl⟩

/-- Each closing parenthesis closes one of the open lists. -/
theorem exists_feedAll_closings {n : Nat} (hn : n ≤ v.depth) (pos : Nat) :
    ∃ w, v.feedAll (lexemesFrom pos (List.replicate n ')')) = .ok w ∧ w.depth + n = v.depth := by
  induction n generalizing v pos with
  | zero => exact ⟨v, rfl, rfl⟩
  | succ n ih =>
    obtain ⟨inner, _ | ⟨around, outer⟩⟩ := v
    · exact absurd hn (Nat.not_succ_le_zero n)
    · have hfeed : Unfinished.feed ⟨inner, around :: outer⟩ ⟨pos, .closing⟩ =
          .ok ⟨.list inner.reverse :: around, outer⟩ := Unfinished.feed_closing_cons rfl _ _ _
      obtain ⟨w, hw, hdepth⟩ :=
        ih (v := ⟨.list inner.reverse :: around, outer⟩) (Nat.le_of_succ_le_succ hn) (pos + 1)
      refine ⟨w, ?_, by rw [← Nat.add_assoc, hdepth]; rfl⟩
      rw [List.replicate_succ, lexemesFrom_closing, Unfinished.feedAll_cons hfeed, hw]

/-- **Closing parentheses behind a text** that fails at its end, as many as there are open lists or
fewer. -/
theorem parseAllChars_append_closings {n : Nat}
    (h : Unfinished.start.feedAll (lexemes cs) = .ok v) (hn : n ≤ v.depth) :
    ∃ w : Unfinished, parseAllChars (cs ++ List.replicate n ')') = w.finish (cs.length + n) ∧
      w.depth + n = v.depth := by
  have hparted : Parted cs (List.replicate n ')') := Or.inr (endsWord_replicate_closing n)
  obtain ⟨w, hw, hdepth⟩ := exists_feedAll_closings hn (0 + cs.length)
  refine ⟨w, ?_, hdepth⟩
  have hlast := readAll_append hw (cs.length + n) []
  rw [List.append_nil] at hlast
  rw [parseAllChars, lexemes, lexemesFrom_append hparted, ← lexemes, readAll_append h,
    List.length_append, List.length_replicate, hlast, readAll]

/-- **A text that fails at its end** lacks as many closing parentheses as are counted in it. -/
theorem closings_of_parseAllChars (h : parseAllChars cs = .error err)
    (hend : err.position = cs.length) :
    err.kind = .unbalanced ∧ ∃ d : Nat, 0 < d ∧ openParens cs = d ∧
      (∃ es, parseAllChars (cs ++ List.replicate d ')') = .ok es) ∧
      ∀ n < d, parseAllChars (cs ++ List.replicate n ')') =
        .error ⟨.unbalanced, cs.length + n⟩ := by
  obtain ⟨v, hv, hdepth, hkind⟩ := exists_open_lists h hend
  refine ⟨hkind, v.depth, hdepth, (depth_of_feedAll_lexemes hv).symm, ?_, ?_⟩
  · obtain ⟨⟨inner, outer⟩, hparse, hclosed⟩ := parseAllChars_append_closings hv (Nat.le_refl _)
    obtain rfl : outer = [] := List.length_eq_zero_iff.mp (Nat.add_eq_right.mp hclosed)
    exact ⟨inner.reverse, hparse⟩
  · intro n hn
    obtain ⟨⟨inner, outer⟩, hparse, hopen⟩ := parseAllChars_append_closings hv (Nat.le_of_lt hn)
    cases outer with
    | nil => exact absurd ((Nat.zero_add n).symm.trans hopen) (Nat.ne_of_lt hn)
    | cons around outer => exact hparse

end Expr

/-! ## At the prompt -/

/-- Closing parentheses, and nothing else, make it a text of trees. -/
def Unclosed (cs : List Char) : Prop :=
  ∃ n es, 0 < n ∧ Expr.parseAllChars (cs ++ List.replicate n ')') = .ok es

namespace Unclosed

/-- The prompt sees that closing parentheses are missing. -/
theorem openParens_pos (h : Unclosed cs) : 0 < openParens cs := by
  obtain ⟨n, es, hn, hparse⟩ := h
  have hclosed := Expr.openParens_of_parseAllChars hparse
  rw [openParens_append, openParens_replicate_closing] at hclosed
  omega

/-- A line that leaves such a text is only collected. -/
theorem step {p : Prompt} (h : Unclosed (p.extend line)) (verbose : Bool) :
    p.step verbose (.line line) = ({ p with buffer := p.extend line }, []) := by
  have hparens : openParens (p.extend line) > 0 := h.openParens_pos
  simp only [Prompt.step, if_pos hparens]

end Unclosed

/-- The session is given only what leaves no parenthesis to close. -/
theorem Prompt.Asking.openParens_le {a : Asking} {text : List Char} (h : a.text? = some text) :
    openParens text ≤ 0 := by
  obtain ⟨p, _ | ⟨line⟩ | _⟩ := a
  · cases h
  · simp only [text?] at h
    split at h
    · cases h
    · rename_i hparens
      cases h
      exact Int.not_lt.mp hparens
  · cases h

/-- The trees that a line asks for leave as many parentheses to close as the line. -/
theorem Request.openParens_trees (h : Request.ofLine line = .ok (.trees cs)) :
    openParens cs = openParens line := by
  cases read_of_ofLine h with
  | trees htrim => rw [← htrim, openParens_trim]

/-- **The prompt counts what the reader misses.** In a text of trees no parenthesis is left to
close. A text that fails at its end has lists open, as many as the prompt counts: with as many
closing parentheses put behind, it is a text of trees, and with fewer it fails at its new end. So
the prompt goes on collecting lines that lack closing parentheses only: whatever happens, the
session is not given such a text, nor one that asks for it. -/
theorem prompt_counts_open_lists (s : String) :
    (∀ es, Expr.parseAll s = .ok es → openParens s.toList = 0) ∧
      (∀ err, Expr.parseAll s = .error err → err.position = s.length →
        err.kind = .unbalanced ∧ ∃ d : Nat, 0 < d ∧ openParens s.toList = d ∧
          (∃ es, Expr.parseAll (s ++ String.ofList (List.replicate d ')')) = .ok es) ∧
          ∀ n < d, Expr.parseAll (s ++ String.ofList (List.replicate n ')')) =
            .error ⟨.unbalanced, s.length + n⟩) ∧
      (Unclosed s.toList →
        (∀ (verbose : Bool) (p : Prompt) (line : List Char), p.extend line = s.toList →
          p.step verbose (.line line) = ({ p with buffer := s.toList }, [])) ∧
        ∀ (verbose : Bool) (p : Prompt) (events : List Event),
          ∀ a ∈ p.askings verbose events, ∀ text, a.text? = some text →
            text ≠ s.toList ∧ Request.ofLine text ≠ .ok (.trees s.toList)) := by
  refine ⟨fun es h => Expr.openParens_of_parseAllChars h, ?_, ?_⟩
  · intro err h hend
    rw [← String.length_toList] at hend
    have hclosings := Expr.closings_of_parseAllChars h hend
    simpa only [Expr.parseAll, String.toList_append, String.toList_ofList, String.length_toList]
      using hclosings
  · intro hunclosed
    constructor
    · intro verbose p line hline
      rw [← hline] at hunclosed ⊢
      exact hunclosed.step verbose
    · intro verbose p events a _ text htext
      have hcollected := hunclosed.openParens_pos
      have hgiven := Prompt.Asking.openParens_le htext
      constructor
      · rintro rfl
        exact absurd hcollected (Int.not_lt.mpr hgiven)
      · intro htrees
        rw [← Request.openParens_trees htrees] at hgiven
        exact absurd hcollected (Int.not_lt.mpr hgiven)

/-- Two lists are open in `(f` and, on the next line, `(g x_`. -/
theorem prompt_counts_two_open_lists :
    Expr.parseAll "(f\n(g x_" = .error ⟨.unbalanced, 8⟩ ∧ "(f\n(g x_".length = 8 ∧
      (∃ es, Expr.parseAll "(f\n(g x_))" = .ok es) ∧
      Prompt.step false ⟨.fresh, "(f".toList⟩ (.line "(g x_".toList) =
        (⟨.fresh, "(f\n(g x_".toList⟩, []) := by
  have hopen : Expr.parseAll "(f\n(g x_" = .error ⟨.unbalanced, 8⟩ := rfl
  have hlength : "(f\n(g x_".length = 8 := by decide
  obtain ⟨-, hcounts, hprompt⟩ := prompt_counts_open_lists "(f\n(g x_"
  obtain ⟨-, d, hpos, hd, ⟨es, hes⟩, -⟩ := hcounts _ hopen hlength
  obtain rfl : d = 2 := by
    have htwo : openParens "(f\n(g x_".toList = 2 := by decide
    omega
  have hunclosed : Unclosed "(f\n(g x_".toList := ⟨2, es, hpos, hes⟩
  exact ⟨hopen, hlength, ⟨es, hes⟩, (hprompt hunclosed).1 false ⟨.fresh, "(f".toList⟩ _ rfl⟩

end TreeRules
