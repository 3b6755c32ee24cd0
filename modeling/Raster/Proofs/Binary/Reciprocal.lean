import Raster.Proofs.Binary.Nearest

/-!
Rounded reciprocals of counts, and the halves between bytes.  Main statements:
`abs_mul_reciprocal_sub_one_le`, a count times its rounded reciprocal is nearly one,
`nearest_half`, rounding commutes with halving, and `half_le_nearest` with `nearest_lt_half`,
rounding does not pass the halves around a byte's number.
-/

namespace Raster.Binary

open Float.Model (Format)

variable {format : Format} {x : ℚ}

/-- A number with all its digits is rounded as its half is. -/
theorem nearest_half (format : Format)
    (normal : 2 ^ (format.minExponent + format.mantissaBits) ≤ x) :
    nearest format (x / 2) = nearest format x / 2 := by
  -- The half has its last place one further down, so the digits that are rounded are the same.
  have positive : 0 < x := (two_zpow_pos _).trans_le normal
  have least : format.minExponent + format.mantissaBits ≤ Int.log 2 x :=
    (Int.zpow_le_iff_le_log (by norm_num) positive).mp normal
  have low : 2 ^ Int.log 2 x ≤ x := Int.zpow_log_le_self (by norm_num) positive
  have high : x < 2 ^ (Int.log 2 x + 1) := Int.lt_zpow_succ_log_self (by norm_num) x
  have halved : Int.log 2 (x / 2) = Int.log 2 x - 1 := by
    refine log_eq_of_bounds ?_ ?_
    · rw [zpow_sub₀ (by norm_num), zpow_one]
      gcongr
    · rw [sub_add_cancel, div_lt_iff₀ (by norm_num), ← zpow_add_one₀ (by norm_num)]
      exact high
  have place : lastPlace format (x / 2) = lastPlace format x - 1 := by
    simp only [lastPlace, abs_of_pos positive, abs_of_pos (half_pos positive), halved,
      Format.targetExponent]
    omega
  have unit : (2 : ℚ) ^ (lastPlace format x - 1) = 2 ^ lastPlace format x / 2 := by
    rw [zpow_sub₀ (by norm_num), zpow_one]
  rw [nearest, place, unit, div_div_div_cancel_right₀ (by norm_num), nearest, mul_div_assoc]

/-- A count of at most 52 digits times its rounded reciprocal is as near to one as the digits of the
format allow. -/
theorem abs_mul_reciprocal_sub_one_le (format : Format)
    (least : format.minExponent + format.mantissaBits - 1 ≤ -52) {n : Nat} (positive : 0 < n)
    (short : n ≤ 2 ^ 52) : |n * nearest format (1 / n) - 1| ≤ 1 / 2 ^ format.mantissaBits := by
  have count : (0 : ℚ) < n := by exact_mod_cast positive
  have most : (n : ℚ) ≤ 2 ^ 52 := by exact_mod_cast short
  -- A reciprocal of at most 52 digits is not so small that it loses digits.
  have normal : 2 ^ (format.minExponent + format.mantissaBits - 1) ≤ (1 / n : ℚ) := by
    rw [le_div_iff₀ count]
    calc (2 : ℚ) ^ (format.minExponent + format.mantissaBits - 1) * n ≤ 2 ^ (-52 : ℤ) * 2 ^ 52 :=
          mul_le_mul (zpow_le_zpow_right₀ (by norm_num) least) most count.le (by positivity)
      _ = 1 := by norm_num
  have moved := abs_nearest_sub_le_div normal
  have scaled : n * nearest format (1 / n) - 1 = n * (nearest format (1 / n) - 1 / n) := by
    rw [mul_sub, mul_one_div_cancel count.ne']
  rw [scaled, abs_mul, abs_of_pos count]
  calc (n : ℚ) * |nearest format (1 / n) - 1 / n| ≤ n * (1 / n / 2 ^ format.mantissaBits) :=
        mul_le_mul_of_nonneg_left moved count.le
    _ = 1 / 2 ^ format.mantissaBits := by field_simp

section Halves

variable (least : format.minExponent ≤ -format.mantissaBits) {k : Nat} (byte : k ≤ 255)

include least byte

/-- Rounding does not pass the half below a byte's number. -/
theorem half_le_nearest (digits : 9 ≤ format.mantissaBits) (above : (k : ℚ) - 1 / 2 ≤ x) :
    (k : ℚ) - 1 / 2 ≤ nearest format x := by
  -- The half has at most nine digits, so the format holds it, and rounding keeps the order.
  have room : (2 : ℤ) ^ 9 ≤ 2 ^ format.mantissaBits := by gcongr; norm_num
  have held := nearest_eq_self format (n := 2 * k - 1) (e := -1) (by rw [abs_lt]; omega) (by omega)
  have half : ((2 * k - 1 : ℤ) : ℚ) * 2 ^ (-1 : ℤ) = k - 1 / 2 := by
    push_cast
    ring
  rw [half] at held
  rw [← held]
  exact nearest_mono format above

/-- Rounding stays below the half above a byte's number when there is a number of the format in
between. -/
theorem nearest_lt_half {places : Nat} (digits : places + 9 ≤ format.mantissaBits)
    (below : x ≤ k + 1 / 2 - 1 / 2 ^ (places + 1)) : nearest format x < k + 1 / 2 := by
  -- One unit of the place below the half is still a digit of the format.
  have room : (2 : ℤ) ^ 9 * 2 ^ places ≤ 2 ^ format.mantissaBits := by
    rw [← pow_add]
    gcongr
    · norm_num
    · omega
  have unit : (1 : ℤ) ≤ 2 ^ places := one_le_pow₀ (by norm_num)
  have held := nearest_eq_self format (n := (2 * k + 1) * 2 ^ places - 1)
    (e := -(places + 1 : Nat)) (by rw [abs_lt]; constructor <;> nlinarith) (by omega)
  have between : (((2 * k + 1) * 2 ^ places - 1 : ℤ) : ℚ) * 2 ^ (-(places + 1 : Nat) : ℤ) =
      k + 1 / 2 - 1 / 2 ^ (places + 1) := by
    rw [zpow_neg, zpow_natCast]
    push_cast
    field_simp
    ring
  rw [between] at held
  have gap : (0 : ℚ) < 1 / 2 ^ (places + 1) := by positivity
  linarith [(nearest_mono format below).trans_eq held]

end Halves

end Raster.Binary
