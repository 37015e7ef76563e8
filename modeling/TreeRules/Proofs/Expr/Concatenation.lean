import TreeRules.Proofs.Expr.Feeding

/-!
# Texts put behind one another

A text of trees, blanks, and another text make a text that is read as its parts are. The lexemes of
the second part have only moved (`lexemes_append_gap`). If it is read as trees, these are the other
trees of the whole (`parseAllChars_append_of_ok`); and if it is not, the whole is not either, for
the same reason, since no list is open behind the first part (`parseAllChars_append_of_error`).
-/

namespace TreeRules

variable {cs ds gap : List Char}

/-- Behind blanks the lexemes of a text are the same, only further on. -/
theorem lexemes_append_gap (hne : gap ≠ []) (hgap : gap.all Text.isBlank = true)
    (cs ds : List Char) :
    lexemes (cs ++ (gap ++ ds)) =
      lexemes cs ++ (lexemes ds).map (Located.shift (cs.length + gap.length)) := by
  have hparted : Parted cs (gap ++ ds) := Or.inr (endsWord_blanks hne hgap ds)
  rw [lexemes, lexemesFrom_append hparted, lexemesFrom_blanks hgap, Nat.add_assoc,
    lexemesFrom_shift, lexemes, lexemes]

namespace Expr

variable {es fs : List Expr} {err : ReadError}

/-- The trees of the whole are those of the parts. -/
theorem parseAllChars_append_of_ok (h : parseAllChars cs = .ok es) (hne : gap ≠ [])
    (hgap : gap.all Text.isBlank = true) (hds : parseAllChars ds = .ok fs) :
    parseAllChars (cs ++ (gap ++ ds)) = .ok (es ++ fs) := by
  have hparted : Parted cs (gap ++ ds) := Or.inr (endsWord_blanks hne hgap ds)
  refine parseAllChars_of_lexed ?_
  calc lexed (cs ++ (gap ++ ds))
      = lexed cs ++ lexed ds := by rw [lexed_append hparted, lexed_blanks hgap]
    _ = spellings (es ++ fs) := by
        rw [lexed_of_parseAllChars h, lexed_of_parseAllChars hds, spellings_append]

/-- What is wrong with the second part is wrong with the whole, further on. -/
theorem parseAllChars_append_of_error (h : parseAllChars cs = .ok es) (hne : gap ≠ [])
    (hgap : gap.all Text.isBlank = true) (hds : parseAllChars ds = .error err) :
    parseAllChars (cs ++ (gap ++ ds)) = .error (err.behind (cs.length + gap.length)) := by
  have hlength : (cs ++ (gap ++ ds)).length = ds.length + (cs.length + gap.length) := by
    rw [List.length_append, List.length_append]
    omega
  -- the trees of the first part are in front, but no list is open
  have hdepth : Unfinished.start.depth = (Unfinished.start.pushAll es).depth := rfl
  have hbehind : readAll ds.length (Unfinished.start.pushAll es) (lexemes ds) = .error err :=
    readAll_eq_error_of_depth_eq (fun _ => sound_of_mem_lexemes) hdepth hds
  rw [parseAllChars, lexemes_append_gap hne hgap, readAll_spellings (lexed_of_parseAllChars h),
    hlength, readAll_shift, hbehind]
  rfl

/-- **Reading texts put behind one another.** If a text is read as trees, then with blanks and
another text behind it it is read as these trees and those of the other, or has the error of the
other, as many characters further on as come before. -/
theorem reading_appends {s w : String} (h : parseAll s = .ok es) (hne : w ≠ "")
    (hw : w.toList.all Text.isBlank = true) (s' : String) :
    (∀ fs, parseAll s' = .ok fs → parseAll (s ++ w ++ s') = .ok (es ++ fs)) ∧
      ∀ err, parseAll s' = .error err →
        parseAll (s ++ w ++ s') = .error ⟨err.kind, s.length + w.length + err.position⟩ := by
  have hgap : w.toList ≠ [] := fun hnil => hne (String.toList_eq_nil_iff.mp hnil)
  have htext : (s ++ w ++ s').toList = s.toList ++ (w.toList ++ s'.toList) := by
    rw [String.toList_append, String.toList_append, List.append_assoc]
  constructor
  · intro fs hs'
    rw [parseAll, htext]
    exact parseAllChars_append_of_ok h hgap hw hs'
  · intro err hs'
    rw [parseAll, htext, parseAllChars_append_of_error h hgap hw hs', ReadError.behind,
      String.length_toList, String.length_toList, Nat.add_comm]

/-- Behind `a (b)` and a line feed, `c` is one more tree, and `(x (y____)` has the error that it has
by itself, six characters further on. -/
theorem reading_appends_behind_two_trees :
    ∃ es fs : List Expr, parseAll "a (b)" = .ok es ∧ parseAll "c" = .ok fs ∧
      "\n".toList.all Text.isBlank = true ∧
      parseAll ("a (b)" ++ "\n" ++ "c") = .ok (es ++ fs) ∧
      parseAll "(x (y____)" = .error ⟨.invalidMarker, 5⟩ ∧
      parseAll ("a (b)" ++ "\n" ++ "(x (y____)") = .error ⟨.invalidMarker, 11⟩ := by
  obtain ⟨es, hes⟩ : ∃ es, parseAll "a (b)" = .ok es := ⟨_, rfl⟩
  obtain ⟨fs, hfs⟩ : ∃ fs, parseAll "c" = .ok fs := ⟨_, rfl⟩
  have hblank : "\n".toList.all Text.isBlank = true := by decide
  have hwrong : parseAll "(x (y____)" = .error ⟨.invalidMarker, 5⟩ := rfl
  exact ⟨es, fs, hes, hfs, hblank, (reading_appends hes (by decide) hblank "c").1 fs hfs, hwrong,
    (reading_appends hes (by decide) hblank "(x (y____)").2 _ hwrong⟩

end Expr

end TreeRules
