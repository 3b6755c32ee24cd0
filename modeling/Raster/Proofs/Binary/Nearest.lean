import Mathlib

/-!
Rounding of rationals to a binary format of unbounded range.  Main statements: `nearest_mono`,
rounding keeps the order, and `nearest_eq_self`, it leaves alone what the format can hold.
-/

namespace Raster.Binary

open Float.Model (Format)

/-- The whole number nearest to a rational, the even one of two. -/
def roundEven (x : ℚ) : ℤ :=
  if x - ⌊x⌋ < 1 / 2 then ⌊x⌋
  else if 1 / 2 < x - ⌊x⌋ then ⌊x⌋ + 1
  -- A tie goes to the even neighbour.
  else ⌊x⌋ + ⌊x⌋ % 2

/-- A whole number is nearest to itself. -/
@[simp] theorem roundEven_intCast (n : ℤ) : roundEven n = n := by
  simp [roundEven]

/-- The nearest whole number is one of the two around a rational. -/
theorem roundEven_bounds (x : ℚ) : ⌊x⌋ ≤ roundEven x ∧ roundEven x ≤ ⌊x⌋ + 1 := by
  unfold roundEven
  split_ifs <;> omega

/-- The nearest whole number is at most a half away. -/
theorem abs_roundEven_sub_le (x : ℚ) : |(roundEven x : ℚ) - x| ≤ 1 / 2 := by
  have low := Int.floor_le x
  have high := Int.lt_floor_add_one x
  have parity : ⌊x⌋ % 2 = 0 ∨ ⌊x⌋ % 2 = 1 := by omega
  rw [abs_le]
  unfold roundEven
  split_ifs
  · constructor <;> linarith
  · push_cast
    constructor <;> linarith
  -- Halfway between two whole numbers either of them is a half away.
  · rcases parity with even | odd
    · rw [even]
      push_cast
      constructor <;> linarith
    · rw [odd]
      push_cast
      constructor <;> linarith

/-- Rounding to whole numbers keeps the order. -/
theorem roundEven_mono {x y : ℚ} (order : x ≤ y) : roundEven x ≤ roundEven y := by
  have floors := Int.floor_mono order
  rcases floors.lt_or_eq with less | same
  -- Different unit intervals are in order, and rounding stays in each of them.
  · have above := (roundEven_bounds x).2
    have below := (roundEven_bounds y).1
    omega
  -- On one unit interval only the distance from the lower end counts.
  · unfold roundEven
    rw [← same]
    split_ifs <;> first | omega | (exfalso; linarith)

/-- Rounding to whole numbers is symmetric about zero. -/
theorem roundEven_neg (x : ℚ) : roundEven (-x) = -roundEven x := by
  -- Off the whole numbers, turning the sign turns the unit interval round.
  by_cases whole : x = ⌊x⌋
  -- A whole number is nearest to itself, and so is its negative.
  · rw [whole, ← Int.cast_neg, roundEven_intCast, roundEven_intCast]
  · have low := lt_of_le_of_ne (Int.floor_le x) (Ne.symm whole)
    have high := Int.lt_floor_add_one x
    have mirrored : ⌊-x⌋ = -⌊x⌋ - 1 := by
      rw [Int.floor_eq_iff]
      push_cast
      constructor <;> linarith
    unfold roundEven
    rw [mirrored]
    push_cast
    split_ifs <;> first | omega | (exfalso; linarith)

/-- The exponent of the last place that a format keeps of a rational. -/
def lastPlace (format : Format) (x : ℚ) : ℤ := format.targetExponent (Int.log 2 |x| + 1)

/-- The number nearest to a rational among those of a format, were its exponents unbounded above. -/
def nearest (format : Format) (x : ℚ) : ℚ :=
  roundEven (x / 2 ^ lastPlace format x) * 2 ^ lastPlace format x

variable {format : Format} {x y : ℚ}

/-- Powers of two with whole exponents are positive. -/
theorem two_zpow_pos (k : ℤ) : (0 : ℚ) < 2 ^ k := zpow_pos (by norm_num) k

/-- A larger power of two is a whole multiple of a smaller one. -/
theorem two_zpow_eq_mul {k t : ℤ} (order : t ≤ k) :
    (2 : ℚ) ^ k = ((2 ^ (k - t).toNat : ℤ) : ℚ) * 2 ^ t := by
  -- The exponents differ by a natural number.
  push_cast
  rw [← zpow_natCast, ← zpow_add₀ (by norm_num), Int.toNat_of_nonneg (by omega)]
  congr 1
  omega

/-- A number between two powers of two has the exponent of the lower one as its logarithm. -/
theorem log_eq_of_bounds {k : ℤ} (low : 2 ^ k ≤ x) (high : x < 2 ^ (k + 1)) :
    Int.log 2 x = k := by
  -- The logarithm is the only exponent between the two bounds.
  have positive : 0 < x := (two_zpow_pos k).trans_le low
  have least : k ≤ Int.log 2 x := (Int.zpow_le_iff_le_log (by norm_num) positive).mp low
  have most : Int.log 2 x < k + 1 := (Int.lt_zpow_iff_log_lt (by norm_num) positive).mp high
  omega

@[simp] theorem nearest_zero (format : Format) : nearest format 0 = 0 := by
  -- The last place of zero does not matter: no multiple of it is nearer.
  have zero : roundEven 0 = 0 := by simpa using roundEven_intCast 0
  simp [nearest, zero]

/-- Rounding is symmetric about zero. -/
theorem nearest_neg (format : Format) (x : ℚ) : nearest format (-x) = -nearest format x := by
  simp only [nearest, lastPlace, abs_neg, neg_div, roundEven_neg]
  push_cast
  ring

/-- Rounding does not pass a multiple of the last place that lies above. -/
theorem nearest_le_of_le_multiple {n : ℤ} (order : x ≤ n * 2 ^ lastPlace format x) :
    nearest format x ≤ n * 2 ^ lastPlace format x := by
  -- In units of the last place the bound is a whole number.
  have positive := two_zpow_pos (lastPlace format x)
  have rounded := roundEven_mono ((div_le_iff₀ positive).mpr order)
  rw [roundEven_intCast] at rounded
  exact mul_le_mul_of_nonneg_right (by exact_mod_cast rounded) positive.le

/-- Rounding does not pass a multiple of the last place that lies below. -/
theorem multiple_le_nearest {n : ℤ} (order : n * 2 ^ lastPlace format x ≤ x) :
    n * 2 ^ lastPlace format x ≤ nearest format x := by
  -- In units of the last place the bound is a whole number.
  have positive := two_zpow_pos (lastPlace format x)
  have rounded := roundEven_mono ((le_div_iff₀ positive).mpr order)
  rw [roundEven_intCast] at rounded
  exact mul_le_mul_of_nonneg_right (by exact_mod_cast rounded) positive.le

/-- Rounding moves a number by at most a half of its last place. -/
theorem abs_nearest_sub_le (format : Format) (x : ℚ) :
    |nearest format x - x| ≤ 2 ^ lastPlace format x / 2 := by
  -- Rounding to whole units of the last place moves by half a unit at most.
  have place := two_zpow_pos (lastPlace format x)
  have digits := abs_roundEven_sub_le (x / 2 ^ lastPlace format x)
  have scaled : nearest format x - x =
      (roundEven (x / 2 ^ lastPlace format x) - x / 2 ^ lastPlace format x) *
        2 ^ lastPlace format x := by
    rw [nearest, sub_mul, div_mul_cancel₀ _ place.ne']
  rw [scaled, abs_mul, abs_of_pos place]
  linarith [mul_le_mul_of_nonneg_right digits place.le]

/-- Rounding a number below a power of two moves it by at most a half of the last place there. -/
theorem abs_nearest_sub_le_of_lt {k : ℤ} (below : |x| < 2 ^ k)
    (least : format.minExponent + format.mantissaBits ≤ k) :
    |nearest format x - x| ≤ 2 ^ (k - format.mantissaBits) / 2 := by
  -- A smaller number keeps no more places before the point.
  rcases eq_or_ne x 0 with rfl | nonzero
  · rw [nearest_zero, sub_zero, abs_zero]
    exact (half_pos (two_zpow_pos _)).le
  have log : Int.log 2 |x| < k :=
    (Int.lt_zpow_iff_log_lt (by norm_num) (abs_pos.mpr nonzero)).mp below
  have place : lastPlace format x ≤ k - format.mantissaBits := by
    rw [lastPlace, Format.targetExponent]
    omega
  refine (abs_nearest_sub_le format x).trans ?_
  exact div_le_div_of_nonneg_right (zpow_le_zpow_right₀ (by norm_num) place) (by norm_num)

/-- Rounding a number that has all its digits moves it by a fixed fraction of itself at most. -/
theorem abs_nearest_sub_le_div (normal : 2 ^ (format.minExponent + format.mantissaBits - 1) ≤ x) :
    |nearest format x - x| ≤ x / 2 ^ format.mantissaBits := by
  -- With all its digits a number is at least as large as its first one.
  have positive : 0 < x := (two_zpow_pos _).trans_le normal
  have low : 2 ^ Int.log 2 x ≤ x := Int.zpow_log_le_self (by norm_num) positive
  have least : format.minExponent + format.mantissaBits - 1 ≤ Int.log 2 x :=
    (Int.zpow_le_iff_le_log (by norm_num) positive).mp normal
  have place : lastPlace format x = Int.log 2 x + 1 - format.mantissaBits := by
    rw [lastPlace, abs_of_pos positive, Format.targetExponent]
    omega
  calc |nearest format x - x| ≤ 2 ^ lastPlace format x / 2 := abs_nearest_sub_le format x
    _ = 2 ^ Int.log 2 x / 2 ^ format.mantissaBits := by
        rw [place, zpow_sub₀ (by norm_num), zpow_add₀ (by norm_num), zpow_natCast, zpow_one]
        ring
    _ ≤ x / 2 ^ format.mantissaBits := by gcongr

/-- Rounding a number that is not negative gives one that is not negative. -/
theorem nearest_nonneg (nonneg : 0 ≤ x) : 0 ≤ nearest format x := by
  -- Zero is a multiple of every last place, and rounding passes no multiple.
  have zero : ((0 : ℤ) : ℚ) * 2 ^ lastPlace format x ≤ nearest format x :=
    multiple_le_nearest (by simpa using nonneg)
  simpa using zero

/-- Rounding keeps the order of numbers that are not negative. -/
theorem nearest_mono_of_nonneg (nonneg : 0 ≤ x) (order : x ≤ y) :
    nearest format x ≤ nearest format y := by
  -- Zero has no logarithm, but rounding it is known.
  rcases nonneg.eq_or_lt with rfl | positive
  · rw [nearest_zero]
    exact nearest_nonneg order
  have logs : Int.log 2 x ≤ Int.log 2 y := Int.log_mono_right positive order
  have positive' : 0 < y := by linarith
  -- A larger number has no more digits after the point.
  have places : lastPlace format x ≤ lastPlace format y := by
    simp only [lastPlace, Format.targetExponent, abs_of_pos positive, abs_of_pos positive']
    omega
  rcases places.lt_or_eq with less | same
  -- A power of two between the numbers is a multiple of either last place.
  · have powers : Int.log 2 x < Int.log 2 y ∧ lastPlace format y ≤ Int.log 2 y := by
      simp only [lastPlace, Format.targetExponent, abs_of_pos positive, abs_of_pos positive',
        Format.mantissaBits] at less ⊢
      omega
    have next : x < 2 ^ (Int.log 2 x + 1) := Int.lt_zpow_succ_log_self (by norm_num) x
    have below : x ≤ 2 ^ Int.log 2 y :=
      next.le.trans (zpow_le_zpow_right₀ (by norm_num) powers.1)
    have above : 2 ^ Int.log 2 y ≤ y := Int.zpow_log_le_self (by norm_num) positive'
    calc nearest format x ≤ 2 ^ Int.log 2 y := by
          rw [two_zpow_eq_mul (places.trans powers.2)] at below ⊢
          exact nearest_le_of_le_multiple below
      _ ≤ nearest format y := by
          rw [two_zpow_eq_mul powers.2] at above ⊢
          exact multiple_le_nearest above
  -- In units of one common place, rounding is to whole numbers.
  · unfold nearest
    rw [same]
    have place := two_zpow_pos (lastPlace format y)
    have rounded := roundEven_mono (div_le_div_of_nonneg_right order place.le)
    exact mul_le_mul_of_nonneg_right (by exact_mod_cast rounded) place.le

/-- Rounding keeps the order. -/
theorem nearest_mono (format : Format) : Monotone (nearest format) := by
  -- Below zero the order is that of the magnitudes, turned round.
  intro x y order
  rcases le_total 0 x with nonneg | negative
  · exact nearest_mono_of_nonneg nonneg order
  · rcases le_total 0 y with nonneg' | negative'
    -- Numbers of different signs stay on their sides of zero.
    · have low : 0 ≤ nearest format (-x) := nearest_nonneg (neg_nonneg.mpr negative)
      have high : 0 ≤ nearest format y := nearest_nonneg nonneg'
      rw [nearest_neg] at low
      linarith
    · have mirrored : nearest format (-y) ≤ nearest format (-x) :=
        nearest_mono_of_nonneg (neg_nonneg.mpr negative') (neg_le_neg order)
      rw [nearest_neg, nearest_neg] at mirrored
      linarith

/-- A number with few enough digits, none of them below the least exponent, is left alone. -/
theorem nearest_eq_self (format : Format) {n e : ℤ} (short : |n| < 2 ^ format.mantissaBits)
    (least : format.minExponent ≤ e) : nearest format (n * 2 ^ e) = n * 2 ^ e := by
  by_cases empty : n = 0
  · simp [empty]
  -- The logarithm of the number puts its last place at or below the given exponent.
  have power : |(n : ℚ) * 2 ^ e| < 2 ^ ((format.mantissaBits : ℤ) + e) := by
    rw [abs_mul, abs_of_pos (two_zpow_pos e), zpow_add₀ (by norm_num), zpow_natCast]
    exact mul_lt_mul_of_pos_right (by exact_mod_cast short) (two_zpow_pos e)
  have nonzero : (n : ℚ) * 2 ^ e ≠ 0 :=
    mul_ne_zero (by exact_mod_cast empty) (two_zpow_pos e).ne'
  have log : Int.log 2 |(n : ℚ) * 2 ^ e| < format.mantissaBits + e :=
    (Int.lt_zpow_iff_log_lt (by norm_num) (abs_pos.mpr nonzero)).mp power
  have place : lastPlace format ((n : ℚ) * 2 ^ e) ≤ e := by
    simp only [lastPlace, Format.targetExponent]
    omega
  -- The number is a whole multiple of its last place, and rounding leaves whole numbers alone.
  have whole : (n : ℚ) * 2 ^ e =
      ((n * 2 ^ (e - lastPlace format ((n : ℚ) * 2 ^ e)).toNat : ℤ) : ℚ) *
        2 ^ lastPlace format ((n : ℚ) * 2 ^ e) := by
    rw [Int.cast_mul, mul_assoc, ← two_zpow_eq_mul place]
  exact le_antisymm
    ((nearest_le_of_le_multiple whole.le).trans whole.ge)
    (whole.le.trans (multiple_le_nearest whole.ge))

/-- A natural number that is not too long for the format is left alone behind the point too. -/
theorem nearest_div_two_pow (format : Format) {n j : Nat} (short : n < 2 ^ format.mantissaBits)
    (least : format.minExponent ≤ -j) : nearest format (n / 2 ^ j) = n / 2 ^ j := by
  -- A number of few digits in a place of the format is kept.
  have held := nearest_eq_self format (n := n) (e := -j)
    (by rw [abs_of_nonneg (Int.natCast_nonneg n)]; exact_mod_cast short) least
  rwa [Int.cast_natCast, zpow_neg, zpow_natCast, ← div_eq_mul_inv] at held

/-- A natural number that is not too long for the format is left alone. -/
theorem nearest_natCast (format : Format) (least : format.minExponent ≤ 0) {n : Nat}
    (short : n < 2 ^ format.mantissaBits) : nearest format n = n := by
  simpa using nearest_div_two_pow format (j := 0) short (by simpa using least)

/-- Rounding does not leave the range between a power of two and its negative. -/
theorem abs_nearest_le {k : ℤ} (least : format.minExponent ≤ k) (within : |x| ≤ 2 ^ k) :
    |nearest format x| ≤ 2 ^ k := by
  -- The power has a single digit, and rounding keeps the order.
  have held : nearest format (2 ^ k) = 2 ^ k := by
    have short : |(1 : ℤ)| < 2 ^ format.mantissaBits := by
      rw [abs_one]
      exact one_lt_pow₀ (by norm_num) (by rw [Format.mantissaBits]; omega)
    simpa using nearest_eq_self format short least
  obtain ⟨low, high⟩ := abs_le.mp within
  have above := nearest_mono format high
  have below := nearest_mono format low
  rw [nearest_neg] at below
  rw [held] at above below
  exact abs_le.mpr ⟨below, above⟩

/-- A positive number has as many digits as the format keeps, or reaches its least exponent. -/
theorem roundEven_lastPlace_bounds (format : Format) (positive : 0 < x) :
    roundEven (x / 2 ^ lastPlace format x) ≤ 2 ^ format.mantissaBits ∧
      (lastPlace format x = format.minExponent ∨
        2 ^ (format.mantissaBits - 1) ≤ roundEven (x / 2 ^ lastPlace format x)) := by
  -- A number lies between the powers of two at its logarithm.
  have place := two_zpow_pos (lastPlace format x)
  have target : lastPlace format x =
      max (Int.log 2 x + 1 - format.mantissaBits) format.minExponent := by
    rw [lastPlace, abs_of_pos positive, Format.targetExponent]
  have bits : 1 ≤ format.mantissaBits := by
    rw [Format.mantissaBits]
    omega
  constructor
  -- The power above is one digit too long, and rounding does not pass it.
  · have next : x < 2 ^ (Int.log 2 x + 1) := Int.lt_zpow_succ_log_self (by norm_num) x
    have below : x / 2 ^ lastPlace format x ≤ ((2 ^ format.mantissaBits : ℤ) : ℚ) := by
      rw [div_le_iff₀ place]
      push_cast
      rw [← zpow_natCast, ← zpow_add₀ (by norm_num)]
      exact next.le.trans (zpow_le_zpow_right₀ (by norm_num) (by omega))
    exact (roundEven_mono below).trans_eq (roundEven_intCast _)
  · have floor : format.minExponent ≤
        max (Int.log 2 x + 1 - format.mantissaBits) format.minExponent := le_max_right _ _
    rcases floor.eq_or_lt with least | above
    · exact .inl (by omega)
    -- The power below has all the digits of the format.
    · have low : 2 ^ Int.log 2 x ≤ x := Int.zpow_log_le_self (by norm_num) positive
      have digits : ((2 ^ (format.mantissaBits - 1) : ℤ) : ℚ) ≤ x / 2 ^ lastPlace format x := by
        rw [le_div_iff₀ place]
        push_cast
        rw [← zpow_natCast, ← zpow_add₀ (by norm_num)]
        exact (zpow_le_zpow_right₀ (by norm_num) (by omega)).trans low
      exact .inr ((roundEven_intCast _).symm.trans_le (roundEven_mono digits))

end Raster.Binary
