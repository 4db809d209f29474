import Mathlib.Algebra.Ring.Int.Defs
import Mathlib.Algebra.Ring.Nat

/-!
# Natural numbers as doubles

The double nearest to a natural number, and the way back to a 64-bit integer.

* `nearestDouble_exact`: below `2 ^ 53` nothing is rounded.
* `nearestDouble_ge`, `nearestDouble_lt`: a larger number stays at or above `2 ^ 53`, and below `2 ^ 63` if
  it is not within 512 of it.
-/

namespace UrlShortener.Numbers

/-- The nearest number of the form `q * 2 ^ e` with `q` of at most 53 bits; of two, the one with `q` even. -/
def nearestDouble (n : ℕ) : ℕ :=
  let e := n.log2 - 52
  let q := n / 2 ^ e
  let r := n % 2 ^ e
  if 2 * r < 2 ^ e ∨ 2 * r = 2 ^ e ∧ q % 2 = 0 then q * 2 ^ e else (q + 1) * 2 ^ e

/-- The conversion of a double to `long long`; from `2 ^ 63` on it gives the least value. -/
def toLongLong (x : ℕ) : Int := if x < 2 ^ 63 then x else -2 ^ 63

variable {n : ℕ}

theorem nearestDouble_exact (h : n < 2 ^ 53) : nearestDouble n = n := by
  have he : n.log2 - 52 = 0 := by
    rcases Nat.eq_zero_or_pos n with rfl | hn
    · rfl
    · have := (Nat.log2_lt (Nat.ne_of_gt hn)).2 h
      omega
  simp [nearestDouble, he, Nat.mod_one]

theorem nearestDouble_ge (h : 2 ^ 53 ≤ n) : 2 ^ 53 ≤ nearestDouble n := by
  have hn : n ≠ 0 := by omega
  have hlog : 53 ≤ n.log2 := (Nat.le_log2 hn).2 h
  -- the quotient keeps 53 bits
  have hq : 2 ^ 52 ≤ n / 2 ^ (n.log2 - 52) := by
    rw [Nat.le_div_iff_mul_le (Nat.two_pow_pos _), ← Nat.pow_add]
    have : 52 + (n.log2 - 52) = n.log2 := by omega
    rw [this]
    exact Nat.log2_self_le hn
  have hpow : 2 ≤ 2 ^ (n.log2 - 52) := by
    calc 2 = 2 ^ 1 := rfl
      _ ≤ 2 ^ (n.log2 - 52) := Nat.pow_le_pow_right (by decide) (by omega)
  have hmul : 2 ^ 53 ≤ n / 2 ^ (n.log2 - 52) * 2 ^ (n.log2 - 52) :=
    calc 2 ^ 53 = 2 ^ 52 * 2 := rfl
      _ ≤ _ := Nat.mul_le_mul hq hpow
  unfold nearestDouble
  simp only
  split
  · exact hmul
  · rw [Nat.succ_mul]
    omega

theorem nearestDouble_lt (h : n < 2 ^ 63 - 512) : nearestDouble n < 2 ^ 63 := by
  rcases Nat.lt_or_ge n (2 ^ 53) with hsmall | hlarge
  · rw [nearestDouble_exact hsmall]
    omega
  have hn : n ≠ 0 := by omega
  have hlog : n.log2 < 63 := (Nat.log2_lt hn).2 (by omega)
  have hdiv := Nat.div_add_mod n (2 ^ (n.log2 - 52))
  have hround : nearestDouble n ≤ n ∨
      nearestDouble n = (n / 2 ^ (n.log2 - 52) + 1) * 2 ^ (n.log2 - 52) ∧
        2 ^ (n.log2 - 52) ≤ 2 * (n % 2 ^ (n.log2 - 52)) := by
    unfold nearestDouble
    simp only
    split
    case isTrue _ => exact Or.inl (Nat.div_mul_le_self ..)
    case isFalse hr => exact Or.inr ⟨rfl, by omega⟩
  rcases hround with hle | ⟨heq, hr⟩
  · omega
  rw [heq]
  rcases Nat.lt_or_ge n.log2 62 with hlog' | hlog'
  · -- the next number of this size is at most the next power of two
    have hq : n / 2 ^ (n.log2 - 52) < 2 ^ 53 := by
      rw [Nat.div_lt_iff_lt_mul (Nat.two_pow_pos _), ← Nat.pow_add]
      have h53 : 2 ^ 53 ≤ n → 53 ≤ n.log2 := (Nat.le_log2 hn).2
      have : 53 + (n.log2 - 52) = n.log2 + 1 := by
        have := h53 hlarge
        omega
      rw [this]
      exact Nat.lt_log2_self
    calc (n / 2 ^ (n.log2 - 52) + 1) * 2 ^ (n.log2 - 52) ≤ 2 ^ 53 * 2 ^ (n.log2 - 52) :=
          Nat.mul_le_mul_right _ hq
      _ = 2 ^ (53 + (n.log2 - 52)) := (Nat.pow_add ..).symm
      _ < 2 ^ 63 := Nat.pow_lt_pow_right (by decide) (by omega)
  · have hten : n.log2 - 52 = 10 := by omega
    rw [hten] at hdiv hr ⊢
    omega

end UrlShortener.Numbers
