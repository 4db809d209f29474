import UrlShortener.Proof.Writer
import UrlShortener.Spec.RedisCache

/-!
# Reading printed numbers

What `std::to_string` prints, `std::stoll` and `std::stoull` read back. Digits alone are read to their end.
-/

namespace UrlShortener

/-- A digit is neither a blank nor a sign. -/
theorem splitSign_of_isDigit {c : Char} (h : c.isDigit = true) (s : Str) :
    splitSign ((c :: s).dropWhile isSpace) = (false, c :: s) := by
  have hspace : ¬isSpace c = true := by
    intro hspace
    rw [isDigit_of_isSpace hspace] at h
    cases h
  rw [List.dropWhile_cons_of_neg hspace]
  unfold splitSign
  split
  · rename_i heq
    rw [(List.cons.inj heq).1] at h
    exact absurd h (by decide)
  · rename_i heq
    rw [(List.cons.inj heq).1] at h
    exact absurd h (by decide)
  · rfl

theorem splitSign_decimal (n : ℕ) : splitSign ((decimal n).dropWhile isSpace) = (false, decimal n) := by
  obtain ⟨c, s, hcs⟩ := List.exists_cons_of_ne_nil (decimal_ne_nil n)
  have hc : c ∈ decimal n := by
    rw [hcs]
    exact List.mem_cons_self
  rw [hcs]
  exact splitSign_of_isDigit (decimal_isDigit hc) s

theorem takeWhile_decimal (n : ℕ) : (decimal n).takeWhile Char.isDigit = decimal n :=
  List.takeWhile_eq_self_iff.2 fun _ => decimal_isDigit

theorem dropWhile_decimal (n : ℕ) : (decimal n).dropWhile Char.isDigit = [] :=
  List.dropWhile_eq_nil_iff.2 fun _ => decimal_isDigit

theorem ofDigitChars_decimal (n : ℕ) : Nat.ofDigitChars 10 (decimal n) 0 = n := Nat.ofDigitChars_ten_toDigits

/-- Digits alone are read to their end. -/
theorem readNumeral_digits {ds : Str} (hne : ds ≠ []) (hds : ∀ c ∈ ds, c.isDigit = true) :
    readNumeral ds = some (⟨false, Nat.ofDigitChars 10 ds 0⟩, []) := by
  have hsign : splitSign (ds.dropWhile isSpace) = (false, ds) := by
    obtain ⟨c, s, rfl⟩ := List.exists_cons_of_ne_nil hne
    exact splitSign_of_isDigit (hds c List.mem_cons_self) s
  simp only [readNumeral, hsign, List.takeWhile_eq_self_iff.2 hds, List.dropWhile_eq_nil_iff.2 hds, if_neg hne]

theorem stoll_digits {ds : Str} (hne : ds ≠ []) (hds : ∀ c ∈ ds, c.isDigit = true) :
    stoll ds = if 9223372036854775807 < (Nat.ofDigitChars 10 ds 0 : ℤ) then none
      else some ((Nat.ofDigitChars 10 ds 0 : ℤ), []) := by
  have hlow : ¬(Nat.ofDigitChars 10 ds 0 : ℤ) < -9223372036854775808 := by omega
  simp only [stoll, readNumeral_digits hne hds, Option.bind_some, Numeral.value, Bool.false_eq_true, if_false, hlow,
    false_or]

theorem readNumeral_toString (n : ℤ) :
    readNumeral (toString n).toList = some (⟨decide (n < 0), n.natAbs⟩, []) := by
  have hsign : splitSign ((toString n).toList.dropWhile isSpace) = (decide (n < 0), decimal n.natAbs) := by
    rw [toString_toList]
    split
    · rename_i hneg
      rw [decide_eq_true hneg]
      rfl
    · rename_i hneg
      rw [decide_eq_false hneg, List.nil_append, splitSign_decimal]
  simp only [readNumeral, hsign, takeWhile_decimal, dropWhile_decimal, ofDigitChars_decimal]
  rw [if_neg (decimal_ne_nil _)]

theorem value_toString (n : ℤ) : (⟨decide (n < 0), n.natAbs⟩ : Numeral).value = n := by
  simp only [Numeral.value, decide_eq_true_eq]
  split <;> omega

/-- **A signed number is read back.** -/
theorem stoll_toString {n : ℤ} (hlow : -9223372036854775808 ≤ n) (hhigh : n ≤ 9223372036854775807) :
    stoll (toString n).toList = some (n, []) := by
  simp only [stoll, readNumeral_toString, Option.bind_some, value_toString]
  rw [if_neg (by omega)]

/-- **An unsigned number is read back.** -/
theorem stoull_decimal (n : UInt64) : stoull (decimal n.toNat) = some n := by
  have hlt := n.toNat_lt
  rw [stoull, readNumeral_digits (decimal_ne_nil _) fun _ => decimal_isDigit, Option.bind_some]
  dsimp only
  rw [ofDigitChars_decimal, if_neg (by omega), if_neg Bool.false_ne_true, UInt64.ofNat_toNat]

end UrlShortener
