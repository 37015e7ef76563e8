import TreeRules.Proofs.Expr.FirstTree

/-!
# Incomplete texts and hopeless texts

The offset of an error says whether it is worth typing on. At the end of a text an error means that
the text is only incomplete: what was read up to there can be completed to a tree
(`exists_completion`). Anywhere else the error has been noticed in something that stands there for
good, and it stays, whatever follows (`parseChars_append_of_lt`).
-/

namespace TreeRules

namespace Expr

variable {cs : List Char} {err : ReadError} {v : Unfinished}

/-- A text that ends before a tree is finished can be completed. -/
theorem exists_completion (h : Unfinished.start.feedAll (lexemes cs) = .ok v) (hv : v.Pending) :
    ∃ more e, parseChars (cs ++ more) = .ok e := by
  -- one more list is opened, since there may be no open list, and then all are closed
  have hopened : v.opened.Pending := hv
  obtain ⟨e, he⟩ := hopened.exists_closed v.outer_opened
  have hspelling : e.spelling = v.opened.consumed ++ List.replicate v.opened.depth .closing := by
    rw [← Unfinished.spellings_closed, he, spellings_cons, spellings_nil, List.append_nil]
  have hparted : Parted cs ('(' :: List.replicate v.opened.depth ')') :=
    Or.inr (endsWord_cons (by decide) _)
  refine ⟨'(' :: List.replicate v.opened.depth ')', e, parseChars_of_lexed ?_⟩
  rw [lexed_append hparted, lexed_opening, lexed_replicate_closing, hspelling,
    Unfinished.consumed_opened, Unfinished.consumed_of_feedAll h, List.append_assoc]
  rfl

/-- **An error at the end** says that the text is incomplete. -/
theorem exists_completion_of_eq_length (h : parseChars cs = .error err)
    (hend : err.position = cs.length) : ∃ more e, parseChars (cs ++ more) = .ok e := by
  obtain ⟨pos, c, hfollowed⟩ | ⟨-, t, ht, d, hrefused⟩ | ⟨v, hv, hpending, -⟩ :=
    parseChars_eq_error_cases h
  · have hlt := hfollowed.lt_length
    rw [hfollowed.parseChars_eq_error] at h
    cases h
    exact absurd hend (Nat.ne_of_lt hlt)
  · exact absurd hend (Nat.ne_of_lt (hrefused.lt_length ht))
  · exact exists_completion hv hpending

/-- **An error in front of the end** stays, whatever follows. -/
theorem parseChars_append_of_lt (h : parseChars cs = .error err) (hlt : err.position < cs.length)
    (more : List Char) : parseChars (cs ++ more) = .error err := by
  obtain ⟨pos, c, hfollowed⟩ | ⟨hfirst, -⟩ | ⟨v, -, -, rfl⟩ := parseChars_eq_error_cases h
  · rw [(hfollowed.append more).parseChars_eq_error, ← hfollowed.parseChars_eq_error, h]
  · have hlonger := readFirst_of_grown (grown_lexemesFrom_append 0 cs more)
      (fun _ => sound_of_mem_lexemes) (fun _ => sound_of_mem_lexemes) Unfinished.pending_start
      hfirst (Nat.ne_of_lt hlt) (cs ++ more).length
    rw [parseChars, lexemes, hlonger]
  · exact absurd hlt (Nat.lt_irrefl _)

/-- An error is noticed in the text, or at its end. -/
theorem position_le_of_parseChars (h : parseChars cs = .error err) : err.position ≤ cs.length := by
  obtain ⟨pos, c, hfollowed⟩ | ⟨-, t, ht, d, hrefused⟩ | ⟨v, -, -, rfl⟩ :=
    parseChars_eq_error_cases h
  · have hlt := hfollowed.lt_length
    rw [hfollowed.parseChars_eq_error] at h
    cases h
    exact Nat.le_of_lt hlt
  · exact Nat.le_of_lt (hrefused.lt_length ht)
  · exact Nat.le_refl _

/-- **An error at the end of a text means that it is incomplete, and anywhere else that it is
hopeless.** A text is read as a tree, or it is not, for one of four reasons that are noticed at an
offset of it. At the end: then some text makes it that of a tree. In front of the end: then it has
the same error, at the same offset, whatever follows. -/
theorem incomplete_or_hopeless (s : String) :
    (∃ e, parse s = .ok e) ∨
      ∃ err, parse s = .error err ∧
        err.kind ∈ [.unbalanced, .empty, .invalidMarker, .trailing] ∧
        err.position ≤ s.length ∧
        (err.position = s.length → ∃ (more : String) (e : Expr), parse (s ++ more) = .ok e) ∧
        (err.position < s.length → ∀ more : String, parse (s ++ more) = .error err) := by
  cases h : parse s with
  | ok e => exact Or.inl ⟨e, rfl⟩
  | error err =>
    have hposition := position_le_of_parseChars h
    rw [String.length_toList] at hposition
    refine Or.inr ⟨err, rfl, kind_of_parseChars h, hposition, fun hend => ?_, fun hlt more => ?_⟩
    · rw [← String.length_toList] at hend
      obtain ⟨more, e, he⟩ := exists_completion_of_eq_length h hend
      refine ⟨String.ofList more, e, ?_⟩
      rwa [parse, String.toList_append, String.toList_ofList]
    · rw [← String.length_toList] at hlt
      rw [parse, String.toList_append]
      exact parseChars_append_of_lt h hlt more.toList

/-- `(f (g x_` only lacks parentheses. In `(f a_b` the word `a_b` makes no leaf, and behind
`(f a) b` it is too late for another tree, whatever follows. -/
theorem incomplete_list_and_hopeless_words :
    (∃ (more : String) (e : Expr), parse ("(f (g x_" ++ more) = .ok e) ∧
      (∀ more : String, parse ("(f a_b" ++ more) = .error ⟨.invalidMarker, 4⟩) ∧
      ∀ more : String, parse ("(f a) b" ++ more) = .error ⟨.trailing, 6⟩ := by
  have hstays : ∀ {s : String} {err : ReadError}, parse s = .error err →
      err.position < s.length → ∀ more : String, parse (s ++ more) = .error err := by
    intro s err h hlt
    obtain ⟨e, he⟩ | ⟨err', herr, -, -, -, hstays⟩ := incomplete_or_hopeless s
    · rw [h] at he
      cases he
    · rw [h] at herr
      cases herr
      exact hstays hlt
  have hword : parse "(f a_b" = .error ⟨.invalidMarker, 4⟩ := by rfl
  have hsecond : parse "(f a) b" = .error ⟨.trailing, 6⟩ := by rfl
  have hlist : parse "(f (g x_" = .error ⟨.unbalanced, 8⟩ := by rfl
  refine ⟨?_, hstays hword (by decide), hstays hsecond (by decide)⟩
  obtain ⟨e, he⟩ | ⟨err, herr, -, -, hend, -⟩ := incomplete_or_hopeless "(f (g x_"
  · rw [hlist] at he
    cases he
  · rw [hlist] at herr
    cases herr
    exact hend (by decide)

end Expr

end TreeRules
