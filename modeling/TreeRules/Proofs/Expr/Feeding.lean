import TreeRules.Proofs.Expr.Cuts
import TreeRules.Proofs.Expr.Refusal

/-!
# Reading, lexeme by lexeme

Feeding goes on until a lexeme is refused, for itself and for the number of the lists that are open.
This number rises and falls with the lexemes alone (`Expr.Unfinished.depth_of_feed`). That is why an
error is the same behind other trees (`Expr.readAll_eq_error_of_depth_eq`), and it moves with the
text (`Expr.readAll_shift`).

Reading everything fails where a lexeme is refused, or else at the end, with lists still open
(`Expr.readAll_eq_error`). In that case as many parentheses as there are open lists would close them
all (`Expr.Unfinished.spellings_closed`).
-/

namespace TreeRules

/-- By how much a lexeme changes the number of open lists. -/
def Lexeme.rise : Lexeme → Int
  | .opening => 1
  | .closing => -1
  | .word _ => 0

namespace Expr

variable {cs : List Char} {t : Located} {ts : List Located} {err : ReadError} {u u' v : Unfinished}
  {stop d : Nat}

/-! ## One lexeme -/

namespace Unfinished

/-- **What is not refused** changes the number of open lists as it does anywhere. -/
theorem depth_of_feed (h : u.feed t = .ok v) : (v.depth : Int) = u.depth + t.lexeme.rise := by
  cases fed_of_feed h with
  | opening _ ht =>
    rw [ht]
    rfl
  | closing ht inner around outer =>
    rw [ht]
    simp only [depth, Lexeme.rise, List.length_cons]
    omega
  | word _ ht =>
    rw [ht]
    exact (Int.add_zero _).symm

/-- What is not refused is not refused wherever as many lists are open. -/
theorem exists_feed_of_depth_eq (ht : t.lexeme.Sound) (hdepth : u.depth = u'.depth)
    (h : u.feed t = .ok v) : ∃ v' : Unfinished, u'.feed t = .ok v' ∧ v.depth = v'.depth := by
  cases h' : u'.feed t with
  | error err =>
    have hrefused := (feed_eq_error_iff ht).mp h'
    rw [← hdepth] at hrefused
    rw [(feed_eq_error_iff ht).mpr hrefused] at h
    cases h
  | ok v' =>
    have hv := depth_of_feed h
    have hv' := depth_of_feed h'
    rw [hdepth] at hv
    exact ⟨v', rfl, by omega⟩

end Unfinished

namespace Refused

/-- The error is noticed in the lexeme. -/
theorem start_le (h : Refused d t err) : t.start ≤ err.position := by
  cases h with
  | closing => exact Nat.le_refl _
  | word => exact Nat.le_add_right ..

/-- The error is noticed in the lexeme, and not behind it. -/
theorem lt_stop (h : Refused d t err) : err.position < t.stop := by
  rw [Located.stop]
  cases h with
  | closing hlexeme =>
    rw [hlexeme]
    exact Nat.lt_succ_self _
  | word hlexeme =>
    rw [hlexeme]
    simp only [List.length_append, List.length_cons]
    omega

/-- The error is noticed in front of the end of the text. -/
theorem lt_length (ht : t ∈ lexemes cs) (h : Refused d t err) : err.position < cs.length := by
  have hstop := stop_le_of_mem_lexemesFrom ht
  rw [Nat.zero_add] at hstop
  exact Nat.lt_of_lt_of_le h.lt_stop hstop

end Refused

/-! ## Several lexemes -/

namespace Unfinished

/-- Read several lexemes. -/
def feedAll (u : Unfinished) (ts : List Located) : Except ReadError Unfinished := ts.foldlM feed u

theorem feedAll_cons (h : u.feed t = .ok v) (ts : List Located) :
    u.feedAll (t :: ts) = v.feedAll ts := by
  rw [feedAll, List.foldlM_cons, h]
  rfl

theorem exists_feed_of_feedAll (h : u.feedAll (t :: ts) = .ok v) :
    ∃ w : Unfinished, u.feed t = .ok w ∧ w.feedAll ts = .ok v := by
  cases hfeed : u.feed t with
  | error err =>
    rw [feedAll, List.foldlM_cons, hfeed] at h
    cases h
  | ok w =>
    rw [feedAll_cons hfeed] at h
    exact ⟨w, rfl, h⟩

theorem consumed_of_feedAll (h : u.feedAll ts = .ok v) :
    v.consumed = u.consumed ++ ts.map Located.lexeme := by
  induction ts generalizing u with
  | nil =>
    cases h
    exact (List.append_nil _).symm
  | cons t ts ih =>
    obtain ⟨w, hfeed, hrest⟩ := exists_feed_of_feedAll h
    rw [ih hrest, consumed_of_feed hfeed, List.map_cons, List.append_assoc]
    rfl

end Unfinished

/-- Behind lexemes that are fed, reading goes on with what they leave. -/
theorem readAll_append (h : u.feedAll ts = .ok v) (stop : Nat) (rest : List Located) :
    readAll stop u (ts ++ rest) = readAll stop v rest := by
  induction ts generalizing u with
  | nil =>
    cases h
    rfl
  | cons t ts ih =>
    obtain ⟨w, hfeed, hrest⟩ := Unfinished.exists_feed_of_feedAll h
    rw [List.cons_append, readAll_of_feed hfeed, ih hrest]

/-! ## Errors -/

/-- **Reading everything fails** where a lexeme is refused, or at the end, with lists still open. -/
theorem readAll_eq_error (hts : ∀ t ∈ ts, t.lexeme.Sound) (h : readAll stop u ts = .error err) :
    (∃ t ∈ ts, ∃ d, Refused d t err) ∨
      ∃ v, u.feedAll ts = .ok v ∧ 0 < v.depth ∧ err = ⟨.unbalanced, stop⟩ := by
  induction ts generalizing u with
  | nil =>
    obtain ⟨inner, outer⟩ := u
    cases outer with
    | nil => cases h
    | cons around outer =>
      cases h
      exact Or.inr ⟨_, rfl, Nat.zero_lt_succ _, rfl⟩
  | cons t ts ih =>
    rw [List.forall_mem_cons] at hts
    rw [readAll] at h
    cases hfeed : u.feed t with
    | error err' =>
      rw [hfeed] at h
      cases h
      exact Or.inl ⟨t, List.mem_cons_self, _, (Unfinished.feed_eq_error_iff hts.1).mp hfeed⟩
    | ok w =>
      rw [hfeed] at h
      obtain ⟨t', ht', hrefused⟩ | ⟨v, hv, hdepth, herr⟩ := ih hts.2 h
      · exact Or.inl ⟨t', List.mem_cons_of_mem t ht', hrefused⟩
      · exact Or.inr ⟨v, by rw [Unfinished.feedAll_cons hfeed, hv], hdepth, herr⟩

/-- **An error is the same behind other trees**, as long as as many lists are open. -/
theorem readAll_eq_error_of_depth_eq (hts : ∀ t ∈ ts, t.lexeme.Sound) (hdepth : u.depth = u'.depth)
    (h : readAll stop u ts = .error err) : readAll stop u' ts = .error err := by
  induction ts generalizing u u' with
  | nil =>
    obtain ⟨inner, outer⟩ := u
    obtain ⟨inner', outer'⟩ := u'
    cases outer with
    | nil => cases h
    | cons around outer =>
      cases outer' with
      | nil => cases hdepth
      | cons around' outer' => exact h
  | cons t ts ih =>
    rw [List.forall_mem_cons] at hts
    rw [readAll] at h ⊢
    cases hfeed : u.feed t with
    | error err' =>
      have hrefused := (Unfinished.feed_eq_error_iff hts.1).mp hfeed
      rw [hdepth] at hrefused
      rw [hfeed] at h
      rw [(Unfinished.feed_eq_error_iff hts.1).mpr hrefused]
      exact h
    | ok v =>
      obtain ⟨v', hfeed', hopen⟩ := Unfinished.exists_feed_of_depth_eq hts.1 hdepth hfeed
      rw [hfeed] at h
      rw [hfeed']
      exact ih hts.2 hopen h

/-- **An error moves with the text.** -/
theorem readAll_shift (n stop : Nat) (u : Unfinished) (ts : List Located) :
    readAll (stop + n) u (ts.map (Located.shift n)) =
      (readAll stop u ts).mapError (ReadError.behind n) := by
  induction ts generalizing u with
  | nil =>
    rw [List.map_nil, readAll, readAll, Unfinished.finish, Unfinished.finish]
    cases u.outer <;> rfl
  | cons t ts ih =>
    rw [List.map_cons, readAll, readAll, feed_shift]
    cases u.feed t with
    | error err => rfl
    | ok v => exact ih v

/-! ## Closing all lists -/

namespace Unfinished

/-- What is read when, in lists that are open around each other, all are closed. -/
def closed (inner : List Expr) : List (List Expr) → List Expr
  | [] => inner.reverse
  | around :: outer => closed (.list inner.reverse :: around) outer

/-- **As many parentheses as there are open lists close them all.** -/
theorem spellings_closed (u : Unfinished) :
    spellings (closed u.inner u.outer) = u.consumed ++ List.replicate u.depth .closing := by
  obtain ⟨inner, outer⟩ := u
  induction outer generalizing inner with
  | nil => exact (List.append_nil _).symm
  | cons around outer ih =>
    -- the first parenthesis closes the innermost list
    have hfeed := feed_closing_cons (t := ⟨0, .closing⟩) rfl inner around outer
    have hclosing : List.replicate (depth ⟨inner, around :: outer⟩) Lexeme.closing =
        .closing :: List.replicate (depth ⟨around, outer⟩) .closing := List.replicate_succ
    rw [closed, ih, consumed_of_feed hfeed, hclosing, List.append_assoc]
    rfl

end Unfinished

end Expr

end TreeRules
