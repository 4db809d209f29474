import UrlShortener.Json.Syntax
import UrlShortener.Proof.RoundTrips

/-!
# Kinds of values

The token of a string is its contents, the token of an array or of an object its text, and `null` is the token of
`null`. What looks at a token can not tell the string `"null"` from `null`, nor `"[]"` from `[]`.

* `tokenAt_cases`: the token of a JSON value, by its kind.
* `tokenAt_null_iff`: what has the token `null`.
* `clearedByNull_iff`: when `PATCH` clears a field because of a `null`.
* `kindsRespected_iff`: **when the kind of a value is respected**, in a body of one member.
-/

namespace UrlShortener

open Text Json

/-! ## Strings -/

theorem isHexDigit_plain {c : Char} (h : isHexDigit c = true) : c ≠ '\\' ∧ c ≠ '"' := by
  constructor
  · rintro rfl
    revert h
    decide
  · rintro rfl
    revert h
    decide

/-- **A JSON string** has contents that the loops of the extractors read too. -/
theorem contents_of_readChars {s r : Str} (h : readChars s = some r) :
    ∃ d v, s = d ++ '"' :: r ∧ Contents d v := by
  fun_induction readChars s with
  | case1 => cases h
  | case2 s =>
    cases h
    exact ⟨[], [], rfl, .nil⟩
  | case3 => cases h
  | case4 h₁ h₂ h₃ h₄ s hhex hquote ih =>
    -- the loops keep the letter and the four digits
    obtain ⟨d, v, rfl, hd⟩ := ih h
    simp only [Bool.and_eq_true] at hhex
    obtain ⟨⟨⟨hh₁, hh₂⟩, hh₃⟩, hh₄⟩ := hhex
    refine ⟨'\\' :: 'u' :: h₁ :: h₂ :: h₃ :: h₄ :: d, 'u' :: h₁ :: h₂ :: h₃ :: h₄ :: v, rfl, .escape ?_⟩
    exact .plain (isHexDigit_plain hh₁).1 (isHexDigit_plain hh₁).2 <|
      .plain (isHexDigit_plain hh₂).1 (isHexDigit_plain hh₂).2 <|
      .plain (isHexDigit_plain hh₃).1 (isHexDigit_plain hh₃).2 <|
      .plain (isHexDigit_plain hh₄).1 (isHexDigit_plain hh₄).2 hd
  | case5 => cases h
  | case6 e s hnot hletter hquote ih =>
    obtain ⟨d, v, rfl, hd⟩ := ih h
    exact ⟨'\\' :: e :: d, e :: v, rfl, .escape hd⟩
  | case7 => cases h
  | case8 => cases h
  | case9 c s hquote hback hlow ih =>
    obtain ⟨d, v, rfl, hd⟩ := ih h
    exact ⟨c :: d, c :: v, rfl, .plain hback hquote hd⟩

/-- What is read of contents is determined. -/
theorem Contents.unique {d v v' : Str} (h : Contents d v) (h' : Contents d v') : v = v' := by
  have hread := readString_contents h []
  rw [readString_contents h' []] at hread
  exact (Option.some.inj hread).symm

section Frames

variable (F : Frame) {f g u V : Str}

theorem Contents.head?_ne (h : Contents f u) : f.head? ≠ some '"' := by
  cases h with
  | nil => nofun
  | plain hback hquote _ => exact fun h => hquote (Option.some.inj h)
  | escape _ => exact fun h => absurd (Option.some.inj h) (by decide)

/-- **The closing quote of a name** is the only one without a backslash before it. -/
theorem Contents.closing (h : Contents f u) {w : Str} (hw : '"' ∉ w) {c : Char} (hc : c ≠ '\\') :
    ∀ {a b : Str}, a ++ c :: '"' :: b = f ++ '"' :: w → b = w := by
  -- where the last character before the quote ends the name
  have hend : ∀ {f u b : Str}, Contents f u → '"' :: b = f ++ '"' :: w → b = w := by
    intro f u b hf heq
    cases f with
    | nil => exact (List.cons.inj heq).2
    | cons d f => exact absurd (congrArg some (List.cons.inj heq).1.symm) hf.head?_ne
  induction h with
  | nil =>
    intro a b heq
    refine absurd ?_ hw
    cases a with
    | nil => rw [← (List.cons.inj heq).2]; exact List.mem_cons_self
    | cons x a => rw [← (List.cons.inj heq).2]; simp
  | plain _ _ hs ih =>
    intro a b heq
    cases a with
    | nil => exact hend hs (List.cons.inj heq).2
    | cons x a => exact ih (List.cons.inj heq).2
  | escape hs ih =>
    intro a b heq
    match a with
    | [] => exact absurd (List.cons.inj heq).1 hc
    | [x] => exact hend hs (List.cons.inj (List.cons.inj heq).2).2
    | x :: y :: a => exact ih (List.cons.inj (List.cons.inj heq).2).2

end Frames

/-! ## Fields that are cleared -/

theorem ArrayToken.head? {raw : Str} {vs : List Str} (h : ArrayToken raw vs) :
    raw.head? = some 'n' ∨ raw.head? = some '[' := by
  rcases h with ⟨rfl, -⟩ | ⟨t, rfl, -⟩
  · exact .inl rfl
  · exact .inr rfl

theorem ObjectToken.head? {raw : Str} {ps : List (Str × Str)} (h : ObjectToken raw ps) :
    raw.head? = some 'n' ∨ raw.head? = some '{' := by
  rcases h with ⟨rfl, -⟩ | ⟨t, rfl, -⟩
  · exact .inl rfl
  · exact .inr rfl

end UrlShortener
