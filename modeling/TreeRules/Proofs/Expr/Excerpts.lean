import TreeRules.Proofs.Expr.FirstTree
import TreeRules.Proofs.Text.Dark

/-!
# Trees read from the middle of a text

A reader that is set down in a text reads from there to the end of one tree, and looks at nothing
else. What it has read is a text of its own without blanks around it, which says the same tree
(`Tight`), and such a text is found wherever a tree is read (`exists_tight_of_parseAt`). Wherever it
stands, whatever is in front of it, and as long as no word goes on behind it, the same tree is read
there, up to the same end (`parseAt_of_tight`).

Both directions turn on where reading ends: with the lexeme in front of those that are left
(`exists_last_of_readFirst`), and the last lexeme of a text that ends with no blank reaches up to
its end (`stop_of_endsDark`).

Only a blank makes the reader refuse to start (`kind_eq_noStart_iff`). Whatever else there is begins
a lexeme, and a lexeme that is refused is wrong in itself.
-/

namespace TreeRules

open Text

namespace Expr

variable {c : Char} {cs excerpt rest : List Char} {l : Lexeme} {ls : List Lexeme} {t : Located}
  {ts ts' : List Located} {u : Unfinished} {e : Expr} {r : Excerpt} {stop pos : Nat}

/-! ## Where reading ends -/

/-- Reading ends with the lexeme in front of those that it leaves. -/
theorem exists_last_of_readFirst (h : readFirst stop u ts = .ok (e, pos, ts')) :
    ∃ front t, ts = front ++ t :: ts' ∧ pos = t.stop := by
  induction ts generalizing u with
  | nil => cases h
  | cons t ts ih =>
    rw [readFirst] at h
    split at h
    · cases h
    · cases h
      exact ⟨[], t, rfl, rfl⟩
    · obtain ⟨front, last, rfl, hstop⟩ := ih h
      exact ⟨t :: front, last, rfl, hstop⟩

/-- The last lexeme of a text that ends with no blank reaches up to its end. -/
theorem stop_of_endsDark (h : lexemesFrom pos cs = ts ++ [t]) (hends : EndsDark cs) :
    t.stop = pos + cs.length := by
  obtain ⟨front, back, rfl, -, -, -, hstart, -, hback⟩ := exists_cut_around h
  have hnone : lexed back = [] := by rw [← map_lexeme_lexemesFrom t.stop, hback, List.map_nil]
  have hback : back = [] := by
    refine (hends.of_suffix ⟨front ++ t.lexeme.chars, List.append_assoc ..⟩).eq_nil ?_
    exact List.dropWhile_eq_nil_iff.mpr fun c hc => isBlank_of_lexed_eq_nil hnone hc
  rw [t.stop_eq, hstart, hback, List.append_nil, List.length_append, Nat.add_assoc]

/-! ## Reading an excerpt -/

theorem parseAt_of_blank (hc : cs[pos]? = some c) (hblank : isBlank c = true) :
    parseAt cs pos = .error ⟨.noStart, pos⟩ := by
  simp [parseAt, List.head?_drop, hc, hblank]

/-- In front of anything but a blank the first tree is read. -/
theorem parseAt_of_dark (hdark : ∀ c ∈ cs[pos]?, isBlank c = false) :
    parseAt cs pos =
      (readFirst (pos + (cs.drop pos).length) .start (lexemesFrom pos (cs.drop pos))).map
        fun (e, stop, _) => ⟨e, stop, stop ≥ cs.length⟩ := by
  have hhead : ((cs.drop pos).head?.map isBlank).getD false = false := by
    rw [List.head?_drop]
    cases hc : cs[pos]? with
    | none => rfl
    | some c => exact hdark c hc
  rw [parseAt]
  simp only [hhead]
  rfl

/-- Where a tree is read there is no blank, and it is the first tree behind this place. -/
theorem exists_readFirst_of_parseAt (h : parseAt cs pos = .ok r) :
    (∀ c ∈ cs[pos]?, isBlank c = false) ∧
      ∃ ts, readFirst (pos + (cs.drop pos).length) .start (lexemesFrom pos (cs.drop pos)) =
        .ok (r.expr, r.stop, ts) := by
  have hdark : ∀ c ∈ cs[pos]?, isBlank c = false := by
    intro c hc
    cases hblank : isBlank c with
    | false => rfl
    | true =>
      rw [parseAt_of_blank hc hblank] at h
      cases h
  refine ⟨hdark, ?_⟩
  rw [parseAt_of_dark hdark] at h
  cases hfirst : readFirst (pos + (cs.drop pos).length) .start
      (lexemesFrom pos (cs.drop pos)) with
  | error err =>
    rw [hfirst] at h
    cases h
  | ok found =>
    obtain ⟨e, stop, ts⟩ := found
    rw [hfirst] at h
    cases h
    exact ⟨ts, rfl⟩

/-- The text is read as the tree, and there are no blanks around it. -/
structure Tight (e : Expr) (excerpt : List Char) : Prop where
  /-- it is read as the tree -/
  read : parseChars excerpt = .ok e
  /-- it begins with no blank -/
  begins : ∀ c ∈ excerpt.head?, isBlank c = false
  /-- it ends with no blank -/
  ends : EndsDark excerpt

theorem Tight.ne_nil (h : e.Tight excerpt) : excerpt ≠ [] := by
  rintro rfl
  cases h.read

/-- **An excerpt is read wherever it stands**, as the tree that it is read as by itself. -/
theorem parseAt_of_tight (h : e.Tight excerpt) (hrest : EndsWord rest) (front : List Char) :
    parseAt (front ++ (excerpt ++ rest)) front.length =
      .ok ⟨e, front.length + excerpt.length, rest.isEmpty⟩ := by
  have hdrop : (front ++ (excerpt ++ rest)).drop front.length = excerpt ++ rest := List.drop_left
  have hdark : ∀ c ∈ (front ++ (excerpt ++ rest))[front.length]?, isBlank c = false := by
    rw [← List.head?_drop, hdrop, List.head?_append,
      Option.or_of_isSome (List.isSome_head?.mpr h.ne_nil)]
    exact h.begins
  have hspelled : (lexemesFrom front.length excerpt).map Located.lexeme = e.spelling := by
    rw [map_lexeme_lexemesFrom, lexed_of_parseChars h.read]
  obtain ⟨stop, hfirst⟩ := readFirst_spelling (front.length + (excerpt ++ rest).length) hspelled
    (lexemesFrom (front.length + excerpt.length) rest)
  obtain ⟨ts, t, hts, rfl⟩ := exists_last_of_readFirst hfirst
  -- what is left begins behind the excerpt, so the last lexeme read is the last of the excerpt
  rw [List.append_cons] at hts
  have hstop := stop_of_endsDark (List.append_cancel_right hts) h.ends
  have hend : decide (front.length + excerpt.length ≥ (front ++ (excerpt ++ rest)).length) =
      rest.isEmpty := by
    cases rest <;> simp
  rw [parseAt_of_dark hdark, hdrop, lexemesFrom_append (Or.inr hrest), hfirst, hstop, ← hend]
  rfl

/-- The last lexeme of a tree is a word, or it closes the tree. -/
theorem last_of_spelling (h : e.spelling = ls ++ [l]) :
    (∃ word, l = .word word) ∨ e.isList = true ∧ l = .closing := by
  have hlast := congrArg List.getLast? h
  rw [List.getLast?_concat] at hlast
  cases e with
  | atom x =>
    rw [spelling_atom] at hlast
    exact Or.inl ⟨_, (Option.some.inj hlast).symm⟩
  | marker x s =>
    rw [spelling_marker] at hlast
    exact Or.inl ⟨_, (Option.some.inj hlast).symm⟩
  | list cs =>
    rw [spelling_list, ← List.cons_append, List.getLast?_concat] at hlast
    exact Or.inr ⟨rfl, (Option.some.inj hlast).symm⟩

/-- **What has been read is an excerpt of the text**, and no word goes on behind it, unless it ends
with the parenthesis that closes the tree. -/
theorem exists_tight_of_parseAt (h : parseAt cs pos = .ok r) :
    ∃ front excerpt rest, cs = front ++ (excerpt ++ rest) ∧ front.length = pos ∧
      r.stop = pos + excerpt.length ∧ r.expr.Tight excerpt ∧
      (EndsWord rest ∨ r.expr.isList = true ∧ excerpt.getLast? = some ')') := by
  obtain ⟨hdark, ts', hfirst⟩ := exists_readFirst_of_parseAt h
  -- the excerpt goes up to the last lexeme that is read
  obtain ⟨ts, t, hts, hstop⟩ := exists_last_of_readFirst hfirst
  obtain ⟨before, rest, hcut, hsound, hbefore, hback, hstart, rfl, rfl⟩ := exists_cut_around hts
  have hne := hsound.chars_ne_nil
  have hspelled : r.expr.spelling = lexed before ++ [t.lexeme] := by
    have hconsumed := consumed_of_readFirst hfirst
    rw [hts, List.append_cons, List.map_append, ← List.append_assoc] at hconsumed
    rw [← List.append_cancel_right hconsumed, List.map_append, map_lexeme_lexemesFrom]
    rfl
  have hlength : pos ≤ cs.length := by
    have hdrop : cs.drop pos ≠ [] := by
      rw [hcut]
      exact List.append_ne_nil_of_right_ne_nil _ (List.append_ne_nil_of_left_ne_nil hne _)
    exact Nat.le_of_not_lt fun hlt => hdrop (List.drop_eq_nil_of_le (Nat.le_of_lt hlt))
  refine ⟨cs.take pos, before ++ t.lexeme.chars, rest, ?_, List.length_take_of_le hlength, ?_,
    ⟨?_, ?_, ?_⟩, ?_⟩
  · rw [List.append_assoc, ← hcut, List.take_append_drop]
  · rw [hstop, t.stop_eq, hstart, List.length_append, Nat.add_assoc]
  · refine parseChars_of_lexed ?_
    rw [lexed_append hbefore.of_append, lexed_chars hsound, hspelled]
  · intro c hc
    refine hdark c ?_
    rw [← List.head?_drop, hcut, ← List.append_assoc, List.head?_append, hc]
    rfl
  · refine EndsDark.append_left (fun c hc => ?_) hne before
    exact hsound.isBlank_of_mem (List.mem_of_getLast? hc)
  · rcases last_of_spelling hspelled with ⟨word, hword⟩ | ⟨hlist, hclosing⟩
    · rw [hword] at hback hsound
      exact Or.inl (hback.endsWord hsound.1 hsound.2)
    · refine Or.inr ⟨hlist, ?_⟩
      rw [hclosing]
      exact List.getLast?_concat

/-! ## Where no tree can start -/

/-- **Only a blank makes the reader refuse to start.** -/
theorem kind_eq_noStart_iff (cs : List Char) (pos : Nat) :
    (∃ err, parseAt cs pos = .error err ∧ err.kind = .noStart) ↔
      ∃ c, cs[pos]? = some c ∧ isBlank c = true := by
  by_cases hblank : ∃ c, cs[pos]? = some c ∧ isBlank c = true
  · obtain ⟨c, hc, hc'⟩ := hblank
    exact iff_of_true ⟨_, parseAt_of_blank hc hc', rfl⟩ ⟨c, hc, hc'⟩
  · refine iff_of_false ?_ hblank
    rintro ⟨err, h, hkind⟩
    have hdark : ∀ c ∈ cs[pos]?, isBlank c = false := fun c hc =>
      Bool.eq_false_iff.mpr fun hc' => hblank ⟨c, hc, hc'⟩
    rw [parseAt_of_dark hdark] at h
    cases hfirst : readFirst (pos + (cs.drop pos).length) .start
        (lexemesFrom pos (cs.drop pos)) with
    | error err' =>
      rw [hfirst] at h
      cases h
      obtain hother | hother | hother :=
        kind_of_readFirst (fun _ => sound_of_mem_lexemes) hfirst <;>
      · rw [hkind] at hother
        cases hother
    | ok found =>
      rw [hfirst] at h
      cases h

/-! ## Reading is local -/

/-- **A reader in the middle of a text** refuses to start exactly in front of a blank. If it reads a
tree, it has moved on, but not over the end of the text, to a place where no word goes on or right
behind the parenthesis that closes the tree. The piece of the text that it has moved over says this
tree by itself; and with anything in front of it, and behind it anything that ends a word, a reader
that starts at the piece reads the same tree and stops behind the piece. -/
theorem reading_is_local (cs : List Char) (pos : Nat) :
    ((∃ err, parseAt cs pos = .error err ∧ err.kind = .noStart) ↔
        ∃ c, cs[pos]? = some c ∧ isBlank c = true) ∧
      ∀ r, parseAt cs pos = .ok r →
        let piece := (cs.drop pos).take (r.stop - pos)
        pos < r.stop ∧ r.stop ≤ cs.length ∧ parseChars piece = .ok r.expr ∧
          (EndsWord (cs.drop r.stop) ∨ r.expr.isList = true ∧ piece.getLast? = some ')') ∧
          ∀ front rest, EndsWord rest →
            parseAt (front ++ (piece ++ rest)) front.length =
              .ok ⟨r.expr, front.length + (r.stop - pos), rest.isEmpty⟩ := by
  refine ⟨kind_eq_noStart_iff cs pos, fun r h => ?_⟩
  obtain ⟨front, excerpt, rest, rfl, rfl, hstop, htight, hends⟩ := exists_tight_of_parseAt h
  have hlength : r.stop - front.length = excerpt.length := by rw [hstop, Nat.add_sub_cancel_left]
  have hpiece : ((front ++ (excerpt ++ rest)).drop front.length).take (r.stop - front.length) =
      excerpt := by
    rw [List.drop_left, hlength, List.take_left]
  have hrest : (front ++ (excerpt ++ rest)).drop r.stop = rest := by
    rw [hstop, ← List.drop_drop, List.drop_left, List.drop_left]
  have hpos : 0 < excerpt.length := List.length_pos_iff.mpr htight.ne_nil
  dsimp only
  rw [hpiece]
  refine ⟨by omega, ?_, htight.read, ?_, fun front' rest' hrest' => ?_⟩
  · rw [hstop, List.length_append, List.length_append]
    omega
  · rw [hrest]
    exact hends
  · rw [hlength]
    exact parseAt_of_tight htight hrest' front'

/-- In `ab (f x_)c` no tree starts behind `ab`. The list is read up to its parenthesis, although a
word follows, and it is read in `=>(f x_) y`, too. -/
theorem reading_is_local_in_front_of_word :
    let text := "ab (f x_)c".toList
    (∃ err, parseAt text 2 = .error err ∧ err.kind = .noStart) ∧
      ∃ r, parseAt text 3 = .ok r ∧ r.stop = 9 ∧ ¬ EndsWord (text.drop 9) ∧
        parseChars "(f x_)".toList = .ok r.expr ∧
        parseAt "=>(f x_) y".toList 2 = .ok ⟨r.expr, 8, false⟩ := by
  intro text
  have hword : ¬ EndsWord (text.drop 9) := fun h => absurd (h 'c' rfl) (by decide)
  have hread : parseAt text 3 = .ok ⟨.list [.atom (.letter 'f' rfl),
      .marker (some (.letter 'x' rfl)) .one], 9, false⟩ := by rfl
  have hlocal := (reading_is_local text 3).2 _ hread
  refine ⟨(reading_is_local text 2).1.mpr ⟨' ', rfl, by decide⟩, _, hread, rfl, hword,
    hlocal.2.2.1, ?_⟩
  exact hlocal.2.2.2.2 ['=', '>'] [' ', 'y'] (endsWord_blank (by decide) ['y'])

end Expr

end TreeRules
