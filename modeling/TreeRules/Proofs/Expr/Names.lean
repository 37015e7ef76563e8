import TreeRules.Expr.Builder
import TreeRules.Proofs.Expr.RoundTrip

/-!
# Names that read back

A text is refused as a name exactly if it would not be read as that name. What is accepted is a
`Token` with the characters of the text (`Token.ofDatum?_eq_ok_iff`), so that building an atom or a
variable of this name succeeds (`Blueprint.build_atom_eq_ok_iff`,
`Blueprint.build_variable_eq_ok_iff`) and its text is read as the same tree. A text that is refused
may be read as a tree all the same, but not as a leaf of this name: `x_` has the name `x`, and so
has the same word with blanks around it.
-/

namespace TreeRules

variable {v : String} {role : NameRole} {e : Expr}

/-! ## The check -/

namespace Token

/-- **What is accepted as a name** is the token with the characters of the text. -/
theorem ofDatum?_eq_ok_iff {x : Token} : ofDatum? role (.text v) = .ok x ↔ x.text = v := by
  have hchars : ofChars? v.toList = some x ↔ x.text = v := by
    rw [ofChars?_eq_some_iff, text, ← String.toList_inj, String.toList_ofList, eq_comm]
  rw [← hchars, ofDatum?]
  cases ofChars? v.toList with
  | some y => simp
  | none =>
    cases v.toList.find? (!isNameChar ·) <;> simp

/-- A text has a token exactly if it has a first character, and none that would end the name. -/
theorem exists_text_eq_iff :
    (∃ x : Token, x.text = v) ↔ v ≠ "" ∧
      ∀ c ∈ v.toList, Text.isBlank c = false ∧ c ≠ '(' ∧ c ≠ ')' ∧ c ≠ '_' := by
  have hname : ∀ c, isNameChar c = true ↔
      Text.isBlank c = false ∧ c ≠ '(' ∧ c ≠ ')' ∧ c ≠ '_' := by
    intro c
    simp [isNameChar, isReserved, and_assoc]
  constructor
  · rintro ⟨x, rfl⟩
    refine ⟨fun hempty => x.ne_nil ?_, fun c hc => (hname c).mp ?_⟩
    · rw [← String.toList_ofList (l := x.chars), ← text, hempty]
      rfl
    · rw [text, String.toList_ofList] at hc
      exact List.all_eq_true.mp x.allowed c hc
  · rintro ⟨hne, hall⟩
    have hallowed : v.toList.all isNameChar = true :=
      List.all_eq_true.mpr fun c hc => (hname c).mpr (hall c hc)
    exact ⟨⟨v.toList, mt String.toList_eq_nil_iff.mp hne, hallowed⟩, String.ofList_toList⟩

end Token

/-! ## Building leaves -/

namespace Blueprint

theorem token_eq_ok_iff {x : Token} : token role (.text v) = .ok x ↔ x.text = v := by
  have hofDatum : Token.ofDatum? role (.text v) = .ok x ↔ x.text = v := Token.ofDatum?_eq_ok_iff
  rw [← hofDatum, token]
  cases Token.ofDatum? role (.text v) with
  | ok y =>
    constructor <;>
    · intro h
      cases h
      rfl
  | error err =>
    constructor <;>
    · intro h
      cases h

/-- What is made of a name is made of the texts that are names. -/
theorem map_token_eq_ok_iff {leaf : Token → Expr} :
    (token role (.text v)).map leaf = .ok e ↔ ∃ x : Token, e = leaf x ∧ x.text = v := by
  constructor
  · intro h
    cases htoken : token role (.text v) with
    | error err =>
      rw [htoken] at h
      cases h
    | ok x =>
      rw [htoken] at h
      cases h
      exact ⟨x, rfl, token_eq_ok_iff.mp htoken⟩
  · rintro ⟨x, rfl, hx⟩
    rw [token_eq_ok_iff.mpr hx]
    rfl

/-- An atom is built of the texts that are names. -/
theorem build_atom_eq_ok_iff :
    build (.atom (.text v)) = .ok e ↔ ∃ x : Token, e = .atom x ∧ x.text = v := by
  rw [build, map_token_eq_ok_iff]

/-- A variable of each kind is built of the same texts. -/
theorem build_variable_eq_ok_iff {kind : String} {s : Span} (hkind : (kind, s) ∈ Span.kinds) :
    build (.variable (.text v) kind) = .ok e ↔
      ∃ x : Token, e = .marker (some x) s ∧ x.text = v := by
  have hspan : span kind = .ok s := by
    simp only [Span.kinds, List.mem_cons, List.not_mem_nil, or_false, Prod.mk.injEq] at hkind
    rcases hkind with ⟨rfl, rfl⟩ | ⟨rfl, rfl⟩ | ⟨rfl, rfl⟩ <;> rfl
  have hbuild : build (.variable (.text v) kind) =
      (token .variable (.text v)).map fun x => .marker (some x) s := by
    rw [build, hspan]
    cases token .variable (.text v) <;> rfl
  rw [hbuild, map_token_eq_ok_iff]

end Blueprint

/-! ## Reading leaves -/

namespace Expr

/-- The name of an atom is read as the atom. -/
theorem parse_text (x : Token) : parse x.text = .ok (.atom x) := by
  rw [← render_atom, parse_render]

/-- The name of a variable with its underscores is read as the variable. -/
theorem parse_text_append_marks (x : Token) (s : Span) :
    parse (x.text ++ String.ofList (List.replicate s.underscores '_')) =
      .ok (.marker (some x) s) := by
  rw [Token.text, ← String.ofList_append, ← Option.elim_some (f := Token.chars), ← markerChars,
    ← render_marker, parse_render]

/-- **A text is a name exactly if it reads back.** An atom can be built of it exactly if it is read
as an atom of this name, and a variable of each kind exactly if, with the underscores of that kind
behind it, it is read as a variable of that kind and this name. What is built is then what is read.
-/
theorem names_read_back (v : String) :
    (∀ e, Blueprint.build (.atom (.text v)) = .ok e ↔
        parse v = .ok e ∧ ∃ x : Token, e = .atom x ∧ x.text = v) ∧
      (∀ kind s, (kind, s) ∈ Span.kinds → ∀ e,
        Blueprint.build (.variable (.text v) kind) = .ok e ↔
          parse (v ++ String.ofList (List.replicate s.underscores '_')) = .ok e ∧
            ∃ x : Token, e = .marker (some x) s ∧ x.text = v) ∧
      ∀ role, (∃ x, Token.ofDatum? role (.text v) = .ok x) ↔
        v ≠ "" ∧ ∀ c ∈ v.toList, Text.isBlank c = false ∧ c ≠ '(' ∧ c ≠ ')' ∧ c ≠ '_' := by
  refine ⟨fun e => ?_, fun kind s hkind e => ?_, fun role => ?_⟩
  · rw [Blueprint.build_atom_eq_ok_iff]
    refine (and_iff_right_of_imp ?_).symm
    rintro ⟨x, rfl, rfl⟩
    exact parse_text x
  · rw [Blueprint.build_variable_eq_ok_iff hkind]
    refine (and_iff_right_of_imp ?_).symm
    rintro ⟨x, rfl, rfl⟩
    exact parse_text_append_marks x s
  · rw [← Token.exists_text_eq_iff]
    exact exists_congr fun x => Token.ofDatum?_eq_ok_iff

/-- `=>` is a name, and `=>__` is read as the variable of this name. `x_` is none, although `x__` is
read as a variable: as the one of the name `x`, and of another kind. -/
theorem names_read_back_without_marks :
    ("seq", Span.oneOrMore) ∈ Span.kinds ∧ ("single", Span.one) ∈ Span.kinds ∧
      (∃ e, Blueprint.build (.variable (.text "=>") "seq") = .ok e ∧ parse "=>__" = .ok e) ∧
      parse ("x_" ++ "_") = .ok (.marker (some (.letter 'x' rfl)) .oneOrMore) ∧
      ∀ e, Blueprint.build (.variable (.text "x_") "single") ≠ .ok e := by
  have hseq : ("seq", Span.oneOrMore) ∈ Span.kinds := by decide
  have hsingle : ("single", Span.one) ∈ Span.kinds := by decide
  have hread : parse ("x_" ++ "_") = .ok (.marker (some (.letter 'x' rfl)) .oneOrMore) := by
    rfl
  have hbuild : Blueprint.build (.variable (.text "=>") "seq") =
      .ok (.marker (some ⟨['=', '>'], by decide, by decide⟩) .oneOrMore) := by rfl
  refine ⟨hseq, hsingle, ⟨_, hbuild, ?_⟩, hread, fun e he => ?_⟩
  · exact (((names_read_back "=>").2.1 "seq" .oneOrMore hseq _).mp hbuild).1
  · obtain ⟨hsame, x, rfl, -⟩ := ((names_read_back "x_").2.1 "single" .one hsingle e).mp he
    have hmarks : String.ofList (List.replicate Span.one.underscores '_') = "_" := rfl
    rw [hmarks, hread] at hsame
    cases hsame

end Expr

end TreeRules
