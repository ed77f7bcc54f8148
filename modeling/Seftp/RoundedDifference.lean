import Mathlib.Algebra.Order.Field.Power
import Mathlib.Data.Rat.Cast.Order
import Mathlib.Tactic.FieldSimp
import Mathlib.Tactic.Linarith
import Mathlib.Tactic.NormNum
import Mathlib.Tactic.Ring

/-!
# Differences of floating-point times

The difference of a time and a whole number of seconds, when times are floating-point
numbers with `p` bits and differences are rounded to such numbers. Below `2 ^ p` the
rounding does not matter to a comparison: a difference that is not negative is a number
of the format, and a negative one is before every time, rounded or not.

Numbers of the format are rationals, and rounding is any monotone map that leaves them
where they are.
-/
namespace Seftp.RoundedDifference

/-- A number that a floating-point format with `p` bits of significand has, if its
exponents are enough. -/
def IsFloat (p : ℕ) (x : ℚ) : Prop := ∃ m e : ℤ, |m| < 2 ^ p ∧ x = m * 2 ^ e

/-- A rounding to that format. -/
structure IsRounding (p : ℕ) (round : ℚ → ℚ) : Prop where
  mono : Monotone round
  fixes : ∀ x, IsFloat p x → round x = x

variable {p : ℕ} {round : ℚ → ℚ} {s now : ℚ}

theorem isFloat_int {n : ℤ} (h : |n| < 2 ^ p) : IsFloat p n := ⟨n, 0, h, by simp⟩

/-- A whole number below a time is subtracted from it without rounding. -/
theorem isFloat_sub_nat (hfloat : IsFloat p now) (hsmall : now < 2 ^ p) {width : ℕ}
    (hle : (width : ℚ) ≤ now) : IsFloat p (now - width) := by
  obtain ⟨m, e, hm, rfl⟩ := hfloat
  rcases le_or_gt 0 e with he | he
  · -- the time is a whole number
    obtain ⟨k, rfl⟩ := Int.eq_ofNat_of_zero_le he
    have hint : (m * 2 ^ (k : ℤ) - width : ℚ) = ((m * 2 ^ k - width : ℤ) : ℚ) := by
      push_cast
      rw [zpow_natCast]
    rw [hint]
    apply isFloat_int
    have hnonneg : (0 : ℚ) ≤ ((m * 2 ^ k - width : ℤ) : ℚ) := by
      rw [← hint]
      linarith
    have hlt : ((m * 2 ^ k - width : ℤ) : ℚ) < 2 ^ p := by
      rw [← hint]
      have hwidth : (0 : ℚ) ≤ width := Nat.cast_nonneg width
      linarith
    rw [abs_of_nonneg (by exact_mod_cast hnonneg)]
    exact_mod_cast hlt
  · -- the width is a multiple of the last place of the time
    obtain ⟨k, hk⟩ := Int.eq_ofNat_of_zero_le (neg_nonneg.mpr he.le)
    have hplace : (2 : ℚ) ^ k * 2 ^ e = 1 := by
      rw [← zpow_natCast, ← hk, ← zpow_add₀ two_ne_zero, neg_add_cancel, zpow_zero]
    have hdiff : (m * 2 ^ e - width : ℚ) = ((m - width * 2 ^ k : ℤ) : ℚ) * 2 ^ e := by
      push_cast
      rw [sub_mul, mul_assoc, hplace, mul_one]
    have hpos : (0 : ℚ) < 2 ^ e := zpow_pos two_pos e
    refine ⟨m - width * 2 ^ k, e, ?_, hdiff⟩
    have hnonneg : (0 : ℤ) ≤ m - width * 2 ^ k := by
      have hprod : 0 ≤ ((m - width * 2 ^ k : ℤ) : ℚ) * 2 ^ e := by
        rw [← hdiff]
        linarith
      exact_mod_cast nonneg_of_mul_nonneg_left hprod hpos
    have hwidth : (0 : ℤ) ≤ width * 2 ^ k := by positivity
    rw [abs_of_nonneg hnonneg]
    have hmabs := (abs_lt.mp hm).2
    linarith

/-- The rounded start of a whole window lets the same times stay. -/
theorem lt_round_iff (hround : IsRounding p round) (hs : 0 ≤ s) (hnow : IsFloat p now)
    (hsmall : now < 2 ^ p) (width : ℕ) : s < round (now - width) ↔ s < now - width := by
  rcases le_or_gt (width : ℚ) now with hle | hlt
  · rw [hround.fixes _ (isFloat_sub_nat hnow hsmall hle)]
  · -- the window begins before every time
    have hzero : round 0 = 0 := hround.fixes 0 ⟨0, 0, by simp, by simp⟩
    have hneg : round (now - width) ≤ 0 := (hround.mono (by linarith)).trans_eq hzero
    constructor
    · intro h
      linarith
    · intro h
      linarith

end Seftp.RoundedDifference
