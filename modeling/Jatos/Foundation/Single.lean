/-
# Rounding to single precision

A number is rounded to the nearest one with 24 significant bits, and halfway
between two of them to the even one.  The exponent is not bounded: neither
overflow nor the loss of leading bits below the normal range is covered.
-/

import Mathlib.Data.Int.Log
import Mathlib.Data.Rat.Floor
import Mathlib.Tactic.Linarith

namespace Single

variable {q : ℚ} {d : ℕ}

/-- The nearest integer, the even one halfway between two. -/
def roundEven (q : ℚ) : ℤ :=
  if q - ⌊q⌋ < 1 / 2 then ⌊q⌋
  else if 1 / 2 < q - ⌊q⌋ then ⌊q⌋ + 1
  else if Even ⌊q⌋ then ⌊q⌋
  else ⌊q⌋ + 1

/-- The distance of the numbers that have `d` bits behind the leading bit of `q`. -/
def unit (d : ℕ) (q : ℚ) : ℚ := 2 ^ (Int.log 2 q - d)

/-- The nearest number with `d` bits behind the leading one. -/
def roundTo (d : ℕ) (q : ℚ) : ℚ := roundEven (q / unit d q) * unit d q

/-- A number in single precision. -/
def single (q : ℚ) : ℚ := roundTo 23 q

/-! ### Integers -/

/-- Rounding does not go below the integer part. -/
theorem floor_le_roundEven (q : ℚ) : ⌊q⌋ ≤ roundEven q := by
  unfold roundEven
  split_ifs <;> omega

/-- Rounding goes up by one at most. -/
theorem roundEven_le (q : ℚ) : roundEven q ≤ ⌊q⌋ + 1 := by
  unfold roundEven
  split_ifs <;> omega

/-- An integer is its own rounding. -/
theorem roundEven_natCast (n : ℕ) : roundEven n = n := by
  unfold roundEven
  rw [Int.floor_natCast, Int.cast_natCast, sub_self, if_pos (by norm_num)]

/-! ### Significant bits -/

/-- The distance of two numbers of the format is positive. -/
theorem unit_pos (d : ℕ) (q : ℚ) : 0 < unit d q := zpow_pos (by norm_num) _

/-- Scaled by the unit, a number has its leading bit in place `d`. -/
theorem two_pow_le_div (hq : 0 < q) : (2 : ℚ) ^ d ≤ q / unit d q := by
  have hsplit : (2 : ℚ) ^ d * unit d q = 2 ^ Int.log 2 q := by
    rw [unit, ← zpow_natCast, ← zpow_add₀ (by norm_num)]
    congr 1
    omega
  rw [le_div_iff₀ (unit_pos d q), hsplit]
  exact_mod_cast Int.zpow_log_le_self (b := 2) (by norm_num) hq

/-- A number is at least its unit. -/
theorem one_le_div (hq : 0 < q) : 1 ≤ q / unit d q :=
  (one_le_pow₀ (by norm_num)).trans (two_pow_le_div hq)

/-- **A positive number is not rounded away.** -/
theorem roundTo_pos (hq : 0 < q) : 0 < roundTo d q := by
  have hfloor : (1 : ℤ) ≤ ⌊q / unit d q⌋ := Int.le_floor.2 (by exact_mod_cast one_le_div hq)
  have hround : 0 < roundEven (q / unit d q) :=
    lt_of_lt_of_le (by omega) (floor_le_roundEven _)
  exact mul_pos (Int.cast_pos.2 hround) (unit_pos d q)

/-- Nor does it double. -/
theorem roundTo_le (hq : 0 < q) : roundTo d q ≤ 2 * q := by
  have hround : (roundEven (q / unit d q) : ℚ) ≤ q / unit d q + 1 := by
    have hle : (roundEven (q / unit d q) : ℚ) ≤ ⌊q / unit d q⌋ + 1 := by
      exact_mod_cast roundEven_le (q / unit d q)
    exact hle.trans (by linarith [Int.floor_le (q / unit d q)])
  have hone := one_le_div (d := d) hq
  calc roundTo d q ≤ (2 * (q / unit d q)) * unit d q :=
        mul_le_mul_of_nonneg_right (by linarith) (unit_pos d q).le
    _ = 2 * q := by rw [mul_assoc, div_mul_cancel₀ _ (unit_pos d q).ne']

/-- **What has few enough bits is exact.** -/
theorem roundTo_eq {m : ℕ} (hm : m < 2 ^ (d + 1)) (e : ℤ) :
    roundTo d (m * 2 ^ e) = m * 2 ^ e := by
  rcases Nat.eq_zero_or_pos m with rfl | hpos
  · rw [Nat.cast_zero, zero_mul, roundTo, zero_div, ← Nat.cast_zero, roundEven_natCast]
    simp
  have hq : (0 : ℚ) < m * 2 ^ e := mul_pos (Nat.cast_pos.2 hpos) (zpow_pos (by norm_num) _)
  have hlog : Int.log 2 ((m : ℚ) * 2 ^ e) < d + 1 + e := by
    refine (Int.lt_zpow_iff_log_lt (by norm_num) hq).1 ?_
    rw [Nat.cast_ofNat, zpow_add₀ (by norm_num)]
    refine mul_lt_mul_of_pos_right ?_ (zpow_pos (by norm_num) _)
    exact_mod_cast hm
  -- the unit divides the last bit
  obtain ⟨n, hn⟩ := Int.eq_ofNat_of_zero_le
    (by omega : 0 ≤ e - (Int.log 2 ((m : ℚ) * 2 ^ e) - d))
  have hscaled : (m : ℚ) * 2 ^ e / unit d (m * 2 ^ e) = (m * 2 ^ n : ℕ) := by
    rw [unit, mul_div_assoc, ← zpow_sub₀ (by norm_num), hn, zpow_natCast]
    push_cast
    rfl
  rw [roundTo, hscaled, roundEven_natCast, Int.cast_natCast, ← hscaled,
    div_mul_cancel₀ _ (unit_pos _ _).ne']

/-! ### Single precision -/

/-- Rounding keeps a number positive. -/
theorem single_pos (hq : 0 < q) : 0 < single q := roundTo_pos hq

/-- Rounding at most doubles. -/
theorem single_le (hq : 0 < q) : single q ≤ 2 * q := roundTo_le hq

/-- A short numerator over a power of two is a number of the format. -/
theorem single_div_two_pow {m : ℕ} (hm : m < 2 ^ 24) (e : ℕ) :
    single (m / 2 ^ e) = m / 2 ^ e := by
  rw [div_eq_mul_inv, ← zpow_natCast, ← zpow_neg]
  exact roundTo_eq hm _

/-- A short integer is a number of the format. -/
theorem single_natCast {m : ℕ} (hm : m < 2 ^ 24) : single m = m := by
  have h := single_div_two_pow hm 0
  rwa [pow_zero, div_one] at h

/-- A power of two is a number of the format. -/
theorem single_two_pow (e : ℕ) : single (2 ^ e) = 2 ^ e := by
  have h := roundTo_eq (d := 23) (m := 1) (by norm_num) e
  rwa [Nat.cast_one, one_mul, zpow_natCast] at h

/-- The first integer that is not a number in single precision. -/
example : single (2 ^ 24 + 1) = 2 ^ 24 := by decide +kernel

end Single
