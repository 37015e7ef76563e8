import Mathlib.Data.List.TakeWhile
import TreeRules.Text.Blank
import TreeRules.Text.Integer
import TreeRules.Text.LowerCase

/-!
# Texts put on one line

`oneLine` writes a space for every line feed of a text. Both are blanks, so whatever looks at a text
only for its blanks, its words and its numerals finds the same: `trim_oneLine`,
`firstWord?_oneLine`, `readInt?_oneLine`. A word in lower case is no exception, as long as it is
compared with one that holds neither of the two (`lower_oneLine_eq_iff`).
-/

namespace TreeRules.Text

variable {c : Char} {cs : List Char}

/-- A space for a line feed, any other character as it is. -/
def spaced (c : Char) : Char := if c = '\n' then ' ' else c

/-- The text on one line. -/
def oneLine (cs : List Char) : List Char := cs.map spaced

theorem spaced_of_ne (h : c ≠ '\n') : spaced c = c := if_neg h

/-- What tells neither of the two characters from the other tells no character from its
replacement. -/
theorem apply_spaced {α : Type} {f : Char → α} (h : f '\n' = f ' ') (c : Char) :
    f (spaced c) = f c := by
  by_cases hc : c = '\n'
  · rw [hc]
    exact h.symm
  · rw [spaced_of_ne hc]

@[simp] theorem isBlank_spaced (c : Char) : isBlank (spaced c) = isBlank c :=
  apply_spaced (by decide) c

/-- No other character becomes one that is not a blank. -/
theorem spaced_eq_iff {d : Char} (hd : isBlank d = false) : spaced c = d ↔ c = d := by
  constructor
  · rintro rfl
    rw [isBlank_spaced] at hd
    refine (spaced_of_ne ?_).symm
    rintro rfl
    exact absurd hd (by decide)
  · rintro rfl
    refine spaced_of_ne ?_
    rintro rfl
    exact absurd hd (by decide)

theorem spaced_ne {d : Char} (hd : isBlank d = false) (h : c ≠ d) : spaced c ≠ d :=
  fun heq => h ((spaced_eq_iff hd).mp heq)

@[simp] theorem oneLine_nil : oneLine [] = [] := rfl

@[simp] theorem oneLine_cons (c : Char) (cs : List Char) :
    oneLine (c :: cs) = spaced c :: oneLine cs := rfl

theorem oneLine_cons_of_dark (hc : isBlank c = false) (cs : List Char) :
    oneLine (c :: cs) = c :: oneLine cs := by
  rw [oneLine_cons, (spaced_eq_iff hc).mpr rfl]

@[simp] theorem oneLine_append (cs ds : List Char) :
    oneLine (cs ++ ds) = oneLine cs ++ oneLine ds :=
  List.map_append

theorem length_oneLine (cs : List Char) : (oneLine cs).length = cs.length := List.length_map _

/-- There is no line feed in a text on one line. -/
theorem newline_notMem_oneLine (cs : List Char) : '\n' ∉ oneLine cs := by
  intro h
  obtain ⟨c, -, hc⟩ := List.mem_map.mp h
  by_cases hn : c = '\n'
  · rw [hn] at hc
    exact absurd hc (by decide)
  · rw [spaced_of_ne hn] at hc
    exact hn hc

/-- A text without line feeds is on one line. -/
theorem oneLine_of_notMem (h : '\n' ∉ cs) : oneLine cs = cs := by
  induction cs with
  | nil => rfl
  | cons c cs ih =>
    rw [List.mem_cons, not_or] at h
    rw [oneLine_cons, spaced_of_ne (Ne.symm h.1), ih h.2]

/-- A text without line feeds is all of its first line. -/
theorem takeWhile_ne_newline (h : '\n' ∉ cs) : cs.takeWhile (· != '\n') = cs := by
  rw [List.takeWhile_eq_self_iff]
  intro c hc
  have hne : c ≠ '\n' := fun heq => h (heq ▸ hc)
  simpa using hne

/-! ## Cutting -/

section Cutting

variable {p : Char → Bool}

theorem takeWhile_oneLine (h : p '\n' = p ' ') (cs : List Char) :
    (oneLine cs).takeWhile p = oneLine (cs.takeWhile p) := by
  rw [oneLine, List.takeWhile_map]
  congr 2
  funext c
  exact apply_spaced h c

theorem dropWhile_oneLine (h : p '\n' = p ' ') (cs : List Char) :
    (oneLine cs).dropWhile p = oneLine (cs.dropWhile p) := by
  rw [oneLine, List.dropWhile_map]
  congr 2
  funext c
  exact apply_spaced h c

/-- Characters among which the line feed is not make no difference. -/
theorem takeWhile_oneLine_eq (h : p '\n' = false) (h' : p ' ' = false) (cs : List Char) :
    (oneLine cs).takeWhile p = cs.takeWhile p := by
  rw [takeWhile_oneLine (h.trans h'.symm)]
  refine oneLine_of_notMem fun hmem => ?_
  have hp := List.all_eq_true.mp (List.all_takeWhile (p := p) (l := cs)) _ hmem
  rw [h] at hp
  cases hp

end Cutting

theorem reverse_oneLine (cs : List Char) : (oneLine cs).reverse = oneLine cs.reverse :=
  List.map_reverse.symm

theorem trimLeft_oneLine (cs : List Char) : trimLeft (oneLine cs) = oneLine (trimLeft cs) :=
  dropWhile_oneLine (by decide) cs

theorem trimRight_oneLine (cs : List Char) : trimRight (oneLine cs) = oneLine (trimRight cs) := by
  rw [trimRight, reverse_oneLine, dropWhile_oneLine (by decide), reverse_oneLine, trimRight]

theorem trim_oneLine (cs : List Char) : trim (oneLine cs) = oneLine (trim cs) := by
  rw [trim, trimLeft_oneLine, trimRight_oneLine, trim]

/-- The first word is the same, and what follows it is put on one line. -/
theorem firstWord?_oneLine (cs : List Char) :
    firstWord? (oneLine cs) = (firstWord? cs).map fun w => (w.1, oneLine w.2) := by
  rw [firstWord?, firstWord?, trimLeft_oneLine]
  cases htrim : trimLeft cs with
  | nil => rfl
  | cons c rest =>
    have hword := takeWhile_oneLine_eq (p := (!isBlank ·)) (by decide) (by decide) (c :: rest)
    have hrest := dropWhile_oneLine (p := (!isBlank ·)) (by decide) (c :: rest)
    rw [oneLine_cons] at hword hrest ⊢
    simp only [hword, hrest, trimLeft_oneLine, Option.map_some]

/-! ## Numerals -/

theorem moreDigits?_oneLine (value : Nat) (cs : List Char) :
    moreDigits? value (oneLine cs) = moreDigits? value cs := by
  have hdigit : ∀ c, digitValue? (spaced c) = digitValue? c := apply_spaced (by decide)
  fun_induction moreDigits? value cs with
  | case1 value => rfl
  | case2 value c cs ih =>
    rw [oneLine_cons_of_dark (by decide), oneLine_cons, moreDigits?, hdigit]
    congr 1
    funext d
    exact ih d
  | case3 value c cs hnot ih =>
    have hnot' : ∀ d ds, spaced c = '_' → oneLine cs = d :: ds → False := by
      intro d ds hc hds
      obtain ⟨d', ds', rfl, -, -⟩ := List.map_eq_cons_iff.mp hds
      exact hnot d' ds' ((spaced_eq_iff (by decide)).mp hc) rfl
    rw [oneLine_cons, moreDigits?, hdigit]
    · congr 1
      funext d
      exact ih d
    · exact hnot'

theorem readNat?_oneLine (cs : List Char) : readNat? (oneLine cs) = readNat? cs := by
  cases cs with
  | nil => rfl
  | cons c cs =>
    have hcount : (oneLine (c :: cs)).countP (· != '_') = (c :: cs).countP (· != '_') := by
      rw [oneLine, List.countP_map]
      congr 1
      funext d
      exact apply_spaced (f := (· != '_')) (by decide) d
    rw [oneLine_cons] at hcount ⊢
    rw [readNat?, readNat?, hcount, apply_spaced (f := digitValue?) (by decide)]
    split
    · congr 1
      funext d
      exact moreDigits?_oneLine d cs
    · rfl

/-- A line feed is no part of a numeral, and neither is a space. -/
theorem readInt?_oneLine (cs : List Char) : readInt? (oneLine cs) = readInt? cs := by
  have hleft := dropWhile_oneLine (p := isNumeralBlank) (by decide) cs
  have hright := dropWhile_oneLine (p := isNumeralBlank) (by decide)
    (cs.dropWhile isNumeralBlank).reverse
  rw [readInt?, readInt?, hleft, reverse_oneLine, hright, reverse_oneLine]
  cases ((cs.dropWhile isNumeralBlank).reverse.dropWhile isNumeralBlank).reverse with
  | nil => rfl
  | cons c ds =>
    by_cases hminus : c = '-'
    · rw [hminus, oneLine_cons_of_dark (by decide)]
      simp only [readNat?_oneLine]
    · by_cases hplus : c = '+'
      · rw [hplus, oneLine_cons_of_dark (by decide)]
        simp only [readNat?_oneLine]
      · have hminus' : spaced c ≠ '-' := spaced_ne (by decide) hminus
        have hplus' : spaced c ≠ '+' := spaced_ne (by decide) hplus
        have hread := readNat?_oneLine (c :: ds)
        rw [oneLine_cons] at hread ⊢
        split
        · rename_i heq
          exact absurd (List.cons.inj heq).1 hminus'
        · rename_i heq
          exact absurd (List.cons.inj heq).1 hplus'
        · rw [hread]
          split
          · rename_i heq
            exact absurd (List.cons.inj heq).1 hminus
          · rename_i heq
            exact absurd (List.cons.inj heq).1 hplus
          · rfl

/-! ## Lower case -/

/-- A character without a lower-case form of its own stays in the text. -/
theorem mem_lowerAfter {before : List Char} (hc : c ∈ cs) (hlower : lowerChar c = c)
    (hdot : c ≠ 'İ') (hsigma : c ≠ 'Σ') : c ∈ lowerAfter before cs := by
  induction cs generalizing before with
  | nil => cases hc
  | cons d cs ih =>
    rw [lowerAfter, List.mem_append]
    rcases List.mem_cons.mp hc with rfl | hc
    · left
      rw [if_neg hdot, if_neg hsigma, hlower]
      exact List.mem_singleton_self c
    · exact .inr (ih hc)

/-- Words are compared in lower case with the same result. -/
theorem lower_oneLine_eq_iff {word : List Char} (hnewline : '\n' ∉ word) (hspace : ' ' ∉ word)
    (cs : List Char) : lower (oneLine cs) = word ↔ lower cs = word := by
  by_cases hmem : '\n' ∈ cs
  · have hspaced : ' ' ∈ oneLine cs := List.mem_map.mpr ⟨'\n', hmem, rfl⟩
    constructor
    · rintro rfl
      exact absurd (mem_lowerAfter hspaced (by decide) (by decide) (by decide)) hspace
    · rintro rfl
      exact absurd (mem_lowerAfter hmem (by decide) (by decide) (by decide)) hnewline
  · rw [oneLine_of_notMem hmem]

end TreeRules.Text
