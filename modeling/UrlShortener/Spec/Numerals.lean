import UrlShortener.Spec.Types

/-!
# Numbers in texts

`std::stoll` and `std::stoull` of the standard library, on one reader of decimal numbers. What each function of the
repository makes of the value, of what is left of the text and of an exception is with that function.
-/

namespace UrlShortener

/-- An optional sign in front: is it a minus sign, and what follows. -/
def splitSign : Str → Bool × Str
  | '-' :: s => (true, s)
  | '+' :: s => (false, s)
  | s => (false, s)

/-- A number at the start of a text: is there a minus sign, and its magnitude. -/
structure Numeral where
  negative : Bool
  magnitude : ℕ

/-- **The shared reader**: blanks, a sign and at least one digit, and what is left behind them. -/
def readNumeral (str : Str) : Option (Numeral × Str) :=
  let signed := splitSign (str.dropWhile isSpace)
  let digits := signed.2.takeWhile Char.isDigit
  if digits = [] then none
  else some (⟨signed.1, Nat.ofDigitChars 10 digits 0⟩, signed.2.dropWhile Char.isDigit)

/-- Sign and digits as a number. -/
def Numeral.value (n : Numeral) : ℤ := if n.negative then -n.magnitude else n.magnitude

/-- `std::stoll`, with what is left of the text. No digits and values outside of 64 bits are exceptions. -/
def stoll (str : Str) : Option (ℤ × Str) :=
  (readNumeral str).bind fun (n, rest) =>
    if n.value < -9223372036854775808 ∨ 9223372036854775807 < n.value then none else some (n.value, rest)

/-- `std::stoull`, and `std::stoul` where `unsigned long` has 64 bits: a negative number wraps around. -/
def stoull (str : Str) : Option UInt64 :=
  (readNumeral str).bind fun (n, _) =>
    if 18446744073709551615 < n.magnitude then none
    else some (if n.negative then -UInt64.ofNat n.magnitude else UInt64.ofNat n.magnitude)

end UrlShortener
