import Raster.Proofs.Binary.Double

/-!
Whole multiples of rounded numbers.  Main statement: `natCast_le_nearest64_mul`, when a number near
one is rounded to one, all its whole multiples are rounded to whole numbers that are large enough.
-/

namespace Raster.Binary

open Float.Model (Format)

variable {format : Format} {x : ℚ}

/-- A number that is less than a half below a whole number is not rounded to below it, and neither
is one that is a half below an even number. -/
theorem le_roundEven {n : ℤ} (near : n - 1 / 2 < x ∨ n - 1 / 2 = x ∧ n % 2 = 0) :
    n ≤ roundEven x := by
  by_cases above : (n : ℚ) ≤ x
  · exact (roundEven_intCast n).symm.trans_le (roundEven_mono above)
  · -- Just below the whole number the fraction is at least a half.
    have floor : ⌊x⌋ = n - 1 := by
      rw [Int.floor_eq_iff]
      push_cast
      rcases near with near | ⟨near, -⟩ <;> constructor <;> linarith
    unfold roundEven
    rw [floor]
    push_cast
    rcases near with near | ⟨near, even⟩
    · rw [if_neg (by linarith), if_pos (by linarith)]
      omega
    · rw [if_neg (by linarith), if_neg (by linarith)]
      omega

/-- Where the last place is known, a multiple of it bounds the rounded number when the number is
less than half a place below it. -/
theorem le_nearest_of_near {k n : ℤ} {y : ℚ} (low : 2 ^ k ≤ x) (high : x < 2 ^ (k + 1))
    (normal : format.minExponent + format.mantissaBits ≤ k + 1)
    (value : n * 2 ^ (k + 1 - format.mantissaBits) = y)
    (near : y - 2 ^ (k + 1 - format.mantissaBits) / 2 < x ∨
      y - 2 ^ (k + 1 - format.mantissaBits) / 2 = x ∧ n % 2 = 0) : y ≤ nearest format x := by
  have positive : 0 < x := (two_zpow_pos k).trans_le low
  -- Between two powers the last place is fixed, and `y` is a multiple of it.
  have place : lastPlace format x = k + 1 - format.mantissaBits := by
    rw [lastPlace, abs_of_pos positive, log_eq_of_bounds low high, Format.targetExponent]
    omega
  have unit := two_zpow_pos (k + 1 - format.mantissaBits)
  rw [nearest, place, ← value]
  rw [← value] at near
  -- Half a place below `y`, or exactly half when `y` is even, rounds up to `y`.
  have digits : n ≤ roundEven (x / 2 ^ (k + 1 - format.mantissaBits)) := by
    refine le_roundEven ?_
    rcases near with less | ⟨same, even⟩
    · left
      rw [lt_div_iff₀ unit, sub_mul]
      linarith
    · refine .inr ⟨?_, even⟩
      rw [eq_div_iff unit.ne', sub_mul]
      linarith
  exact mul_le_mul_of_nonneg_right (by exact_mod_cast digits) unit.le

/-- Only what is very near to one is rounded up to one. -/
theorem one_sub_le_of_one_le_nearest64 (nonneg : 0 ≤ x) (first : 1 ≤ nearest64 x) :
    1 - 1 / 2 ^ 54 ≤ x := by
  -- A number further below one rounds by less than it lacks.
  by_contra below
  have moved := nearest64_near (k := 0) nonneg (by rw [zpow_zero]; linarith) (by norm_num)
  have high := (abs_le.mp moved).2
  norm_num at high below
  linarith

section Close

variable {m a : Nat}

/-- The places just below a power of two are halved, so what lies at most half of one below it is
rounded to it: the power has even digits. -/
theorem two_pow_le_nearest64 (least : 2 ^ a - 2 ^ a / 2 ^ 54 ≤ x) (below : x < 2 ^ a) :
    2 ^ a ≤ nearest64 x := by
  have positive : (0 : ℚ) < 2 ^ a := by positivity
  -- Below a power of two the doubles are twice as dense as above it.
  have half : (2 : ℚ) ^ ((a : ℤ) - 1) = 2 ^ a / 2 := by
    rw [zpow_sub₀ (by norm_num), zpow_natCast, zpow_one]
  have place : (2 : ℚ) ^ ((a : ℤ) - 1 + 1 - 53) = 2 ^ a / 2 ^ 53 := by
    rw [sub_add_cancel, zpow_sub₀ (by norm_num), zpow_natCast]
    norm_num
  refine @le_nearest_of_near .binary64 _ (a - 1) (2 ^ 53) _ ?_ ?_ ?_ ?_ ?_
  · rw [half]
    linarith
  · rwa [sub_add_cancel, zpow_natCast]
  · show (-1074 : ℤ) + 53 ≤ _
    omega
  · show _ * (2 : ℚ) ^ ((a : ℤ) - 1 + 1 - 53) = _
    rw [place]
    push_cast
    ring
  · show _ - (2 : ℚ) ^ ((a : ℤ) - 1 + 1 - 53) / 2 < _ ∨
      _ - (2 : ℚ) ^ ((a : ℤ) - 1 + 1 - 53) / 2 = _ ∧ _
    rw [place]
    refine (lt_or_eq_of_le ?_).imp_right fun same => ⟨same, by norm_num⟩
    linarith

/-- Between powers of two a whole number lies less than half a place above what is so close to
it. -/
theorem natCast_le_nearest64_of_between (short : m < 2 ^ 53) (digits : 2 ^ a < m)
    (next : m < 2 ^ (a + 1)) (least : m - m / 2 ^ 54 ≤ x) (below : x < m) : m ≤ nearest64 x := by
  have size : a < 53 := (Nat.pow_lt_pow_iff_right (by norm_num)).mp (digits.trans short)
  have value : (2 : ℚ) ^ (a : ℤ) + 1 ≤ m := by
    rw [zpow_natCast]
    exact_mod_cast digits
  have power : (m : ℚ) < 2 ^ (a : ℤ) * 2 := by
    rw [zpow_natCast, ← pow_succ]
    exact_mod_cast next
  have small : (m : ℚ) < 2 ^ 53 := by exact_mod_cast short
  -- Between two powers the last place is that of the lower one.
  have place : (2 : ℚ) ^ ((a : ℤ) + 1 - 53) = 2 ^ (a : ℤ) / 2 ^ 52 := by
    rw [show (a : ℤ) + 1 - 53 = a - 52 by ring, zpow_sub₀ (by norm_num)]
    norm_num
  refine @le_nearest_of_near .binary64 _ a (m * 2 ^ (52 - a)) _ ?_ ?_ ?_ ?_
    (.inl ?_)
  · linarith
  · rw [zpow_add₀ (by norm_num), zpow_one]
    linarith
  · show (-1074 : ℤ) + 53 ≤ _
    omega
  · show _ * (2 : ℚ) ^ ((a : ℤ) + 1 - 53) = _
    rw [place]
    have whole : (2 : ℚ) ^ (52 - a) * 2 ^ (a : ℤ) = 2 ^ 52 := by
      rw [zpow_natCast, ← pow_add]
      congr 1
      omega
    push_cast
    linear_combination (m : ℚ) / 2 ^ 52 * whole
  · show _ - (2 : ℚ) ^ ((a : ℤ) + 1 - 53) / 2 < _
    rw [place]
    linarith

end Close

/-- When a number is rounded to one or more, its whole multiples are not rounded to below the whole
numbers that they are multiples by. -/
theorem natCast_le_nearest64_mul {m : Nat} (short : m < 2 ^ 53) (nonneg : 0 ≤ x)
    (first : 1 ≤ nearest64 x) : m ≤ nearest64 (m * x) := by
  have near := one_sub_le_of_one_le_nearest64 nonneg first
  rcases Nat.eq_zero_or_pos m with rfl | positive
  · simp
  by_cases above : 1 ≤ x
  · exact natCast_le_nearest64 short (le_mul_of_one_le_right (Nat.cast_nonneg m) above)
  -- The multiple lies below the whole number by less than a half of its last place.
  have number : (1 : ℚ) ≤ m := by exact_mod_cast positive
  have below : m * x < m := mul_lt_of_lt_one_right (by linarith) (not_le.mp above)
  have least : m - m / 2 ^ 54 ≤ m * x := by
    have := mul_le_mul_of_nonneg_left near (Nat.cast_nonneg (α := ℚ) m)
    linarith [mul_sub (m : ℚ) 1 (1 / 2 ^ 54), mul_one_div (m : ℚ) (2 ^ 54)]
  rcases eq_or_lt_of_le (Nat.log2_self_le positive.ne') with power | between
  · have value : (m : ℚ) = 2 ^ m.log2 := by exact_mod_cast power.symm
    rw [value] at least below ⊢
    exact two_pow_le_nearest64 least below
  · exact natCast_le_nearest64_of_between short between Nat.lt_log2_self least below

end Raster.Binary
