import UrlShortener.Json.Syntax
import UrlShortener.Proof.RoundTrips

/-!
# What the writer prints is JSON

* `valueText_jsonString`: a written string is a JSON string exactly when it holds no control character besides line
  feed, carriage return and tab, which are the only ones that the writer escapes.
* `valueText_decimal`, `valueText_toString`: written numbers are JSON numbers.
-/

namespace UrlShortener

open Text Json

/-! ## Strings -/

/-- The control characters that the writer prints as they are. -/
def isBareControl (c : Char) : Bool := decide (c.toNat < 32) && !isLineControl c

/-- Nothing is printed that a JSON string must not hold. -/
def Printable (s : Str) : Prop := ∀ c ∈ s, isBareControl c = false

instance (s : Str) : Decidable (Printable s) := List.decidableBAll _ _

/-- **One character, written and read**: it is passed over, unless it is a control character printed as it is. -/
theorem readChars_jsonEscapeChar (c : Char) (s : Str) :
    readChars (jsonEscapeChar c ++ s) = if isBareControl c then none else readChars s := by
  cases hc : isEscaped c with
  | true =>
    simp only [isEscaped, Bool.or_eq_true, beq_iff_eq] at hc
    rcases hc with (((rfl | rfl) | rfl) | rfl) | rfl <;> exact readChars_escape rfl s
  | false =>
    rw [jsonEscapeChar_of_plain hc]
    simp only [isEscaped, Bool.or_eq_false_iff, beq_eq_false_iff_ne] at hc
    obtain ⟨⟨⟨⟨hback, hquote⟩, hn⟩, hr⟩, ht⟩ := hc
    rw [List.singleton_append, readChars_plain hquote hback]
    simp [isBareControl, isLineControl, hn, hr, ht]

theorem readChars_jsonEscape (s t : Str) :
    readChars (jsonEscape s ++ '"' :: t) = if s.any isBareControl then none else some t := by
  induction s with
  | nil => exact readChars_quote t
  | cons c s ih =>
    rw [jsonEscape] at ih ⊢
    rw [List.flatMap_cons, List.append_assoc, readChars_jsonEscapeChar, ih, List.any_cons]
    cases isBareControl c <;> simp

theorem any_isBareControl (s : Str) : s.any isBareControl = false ↔ Printable s := by
  simp [Printable]

theorem isName_jsonEscape {s : Str} (h : Printable s) : IsName (jsonEscape s) := by
  intro t
  rw [readChars_jsonEscape, (any_isBareControl s).2 h]
  rfl

/-- **A written string.** -/
theorem valueText_jsonString (s : Str) : ValueText (Printable s) (jsonString s) := by
  refine valueText_string isName_jsonEscape fun h t => ?_
  rw [readChars_jsonEscape, if_pos]
  rw [← any_isBareControl, Bool.not_eq_false] at h
  exact h

/-! ## Numbers -/

theorem decimal_ne_nil (n : ℕ) : decimal n ≠ [] := Nat.toDigits_ne_nil

/-- The first digit of a number is not zero. -/
theorem head?_decimal {n : ℕ} (hn : n ≠ 0) : (decimal n).head? ≠ some '0' := by
  induction n using Nat.strong_induction_on with
  | _ n ih =>
    by_cases hlt : n < 10
    · have hdigit : ∀ m < 10, m ≠ 0 → Nat.digitChar m ≠ '0' := by decide
      rw [decimal, Nat.toDigits_of_lt_base hlt, List.head?_cons]
      exact fun h => hdigit n hlt hn (Option.some.inj h)
    · have hrest := ih (n / 10) (by omega) (by omega)
      have hsplit : decimal n = decimal (n / 10) ++ [Nat.digitChar (n % 10)] :=
        Nat.toDigits_of_base_le (by decide) (by omega)
      rwa [hsplit, List.head?_append_of_ne_nil _ (decimal_ne_nil _)]

theorem isDigits_decimal (n : ℕ) : isDigits (decimal n) = true := by
  rw [isDigits, Bool.and_eq_true, List.all_eq_true]
  exact ⟨by simpa using decimal_ne_nil n, fun _ => decimal_isDigit⟩

theorem isInteger_decimal (n : ℕ) : isInteger (decimal n) = true := by
  by_cases hn : n = 0
  · subst hn
    rfl
  · obtain ⟨c, t, hct⟩ := List.exists_cons_of_ne_nil (decimal_ne_nil n)
    have hd := isDigits_decimal n
    have hzero := head?_decimal hn
    rw [hct] at hd hzero ⊢
    exact isInteger_of_ne_zero (fun h => hzero (by rw [h]; rfl)) hd

theorem valueText_decimal (n : ℕ) : ValueText True (decimal n) := by
  have hvalue := valueText_digits (isDigits_decimal n) false
  rwa [isInteger_decimal, eq_self, if_neg (by decide), List.nil_append] at hvalue

/-- A signed number is printed as a sign and its digits. -/
theorem toString_toList (i : ℤ) : (toString i).toList = (if i < 0 then ['-'] else []) ++ decimal i.natAbs := by
  cases i with
  | ofNat n =>
    have hn : ¬Int.ofNat n < 0 := by simp
    rw [if_neg hn]
    show (Nat.repr n).toList = _
    simp [decimal]
  | negSucc n =>
    have hn : Int.negSucc n < 0 := by omega
    rw [if_pos hn]
    show ("-" ++ Nat.repr (n + 1)).toList = _
    simp [decimal]

theorem valueText_toString (i : ℤ) : ValueText True (toString i).toList := by
  have hvalue := valueText_digits (isDigits_decimal i.natAbs) (decide (i < 0))
  rw [isInteger_decimal, eq_self] at hvalue
  rw [toString_toList]
  simpa using hvalue

end UrlShortener
