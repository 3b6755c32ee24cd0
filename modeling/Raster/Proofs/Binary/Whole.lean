import Raster.Proofs.Binary.Arithmetic

/-!
Whole numbers near unpacked numbers.  Main statements: `toInt_of_denotes`, truncation takes the
floor, and `denotes_integral`, a fraction is resolved to the side of its direction.
-/

namespace Raster.Binary

open Float.Model (Format UnpackedFloat totalExponent)
open Float.Model.UnpackedFloat

variable {format : Format} {u : UnpackedFloat} {x : ℚ} {mantissa : Nat} {exponent : Int}

/-- A mantissa of an exponent below zero counts fractions of the unit. -/
theorem magnitude_eq_div (fraction : exponent < 0) (mantissa : Nat) :
    (mantissa : ℚ) * (2 : ℚ) ^ exponent = mantissa / ((1 <<< (-exponent).toNat : Nat) : ℚ) := by
  -- A power with a negative exponent is the reciprocal of a shift.
  have power : (2 : ℚ) ^ (-exponent).toNat = 2 ^ (-exponent) := by
    rw [← zpow_natCast, Int.toNat_of_nonneg (by omega)]
  rw [Nat.one_shiftLeft]
  push_cast
  rw [power, zpow_neg, div_inv_eq_mul]

/-- Truncating a magnitude takes its floor. -/
theorem roundToInt_positive (mantissa : Nat) (exponent : Int) :
    roundToInt .positive mantissa exponent = ⌊(mantissa : ℚ) * 2 ^ exponent⌋ := by
  -- Shifting the mantissa to the unit cuts off less than one.
  have value := decreaseExponent_value mantissa exponent 0
  have low : (decreaseExponent mantissa exponent 0).2 ≤ 0 := by
    simp only [decreaseExponent]
    omega
  simp only [roundToInt, shiftToExponent, Sign.apply]
  generalize (decreaseExponent mantissa exponent 0).1 = m at value
  generalize (decreaseExponent mantissa exponent 0).2 = e at value low
  have shifted := (represents_exact m 0).shiftRight (0 - e).toNat
  have same : (m : ℚ) * 2 ^ (0 : ℤ) / 2 ^ (0 : ℤ) / 2 ^ (0 - e).toNat =
      mantissa * 2 ^ exponent := by
    rw [← value, zpow_zero, mul_one, div_one, ← zpow_natCast, Int.toNat_of_nonneg (by omega),
      zero_sub, zpow_neg, div_inv_eq_mul]
  rw [same] at shifted
  exact (Int.floor_eq_iff.mpr (by exact_mod_cast shifted.bounds)).symm

/-- Truncating a number that is not negative takes its floor. -/
theorem toInt_of_denotes (denotes : Denotes format u x) (nonneg : 0 ≤ x) (low high : Int) :
    toInt low high u = ⌊x⌋ := by
  -- A number that is not negative is zero or has the positive sign.
  cases denotes with
  | zero => exact Int.floor_zero.symm
  | finite sign positive target =>
    rename_i m e
    cases sign with
    | positive => exact roundToInt_positive m e
    -- A negative magnitude contradicts the hypothesis.
    | negative =>
      have above := magnitude_pos positive e
      rw [signed] at nonneg
      linarith

/-- The whole number that a direction assigns to the magnitude of a number of the given sign. -/
def Direction.whole : Direction → Sign → ℚ → ℤ
  -- Going up shortens a negative magnitude, as going down does a positive one.
  | .down, .positive, x => ⌊x⌋
  | .down, .negative, x => ⌈x⌉
  | .up, .positive, x => ⌈x⌉
  | .up, .negative, x => ⌊x⌋
  | .nearestAway, _, x => ⌊x + 1 / 2⌋

/-- A whole number is assigned to itself. -/
theorem Direction.whole_intCast (direction : Direction) (sign : Sign) (n : ℤ) :
    direction.whole sign n = n := by
  -- A half more does not reach the next whole number.
  have half : ⌊(n : ℚ) + 1 / 2⌋ = n := by
    rw [Int.floor_eq_iff]
    constructor <;> linarith
  cases direction with
  | nearestAway => exact half
  | down => cases sign <;> simp [whole]
  | up => cases sign <;> simp [whole]

/-- The whole number above a quotient of naturals is the next one when something remains. -/
theorem ceil_quotient (numerator : Nat) {denominator : Nat} (positive : 0 < denominator) :
    ⌈(numerator : ℚ) / denominator⌉ = ((if numerator % denominator = 0 then numerator / denominator
      else numerator / denominator + 1 : Nat) : ℤ) := by
  -- The remainder is a fraction below one.
  have den : (0 : ℚ) < denominator := by exact_mod_cast positive
  obtain ⟨split, below⟩ := quotient_parts numerator positive
  rw [split]
  generalize numerator / denominator = whole
  generalize numerator % denominator = part at below
  split_ifs with whole
  -- Without a remainder the quotient is whole.
  · rw [whole, Nat.cast_zero, zero_div, add_zero, Int.ceil_natCast]
  · have above : 0 < (part : ℚ) / denominator :=
      div_pos (by exact_mod_cast Nat.pos_of_ne_zero whole) den
    rw [Int.ceil_eq_iff]
    push_cast
    constructor <;> linarith

/-- The whole number nearest to a quotient of naturals, the larger one of two. -/
theorem floor_quotient_add_half (numerator : Nat) {denominator : Nat} (positive : 0 < denominator) :
    ⌊(numerator : ℚ) / denominator + 1 / 2⌋ =
      ((if 2 * (numerator % denominator) < denominator then numerator / denominator
        else numerator / denominator + 1 : Nat) : ℤ) := by
  -- The remainder is compared with a half of the unit.
  have den : (0 : ℚ) < denominator := by exact_mod_cast positive
  obtain ⟨split, below⟩ := quotient_parts numerator positive
  have least : (0 : ℚ) ≤ ((numerator % denominator : Nat) : ℚ) / denominator := by positivity
  rw [Int.floor_eq_iff, split, Int.cast_natCast]
  generalize numerator / denominator = whole
  generalize numerator % denominator = part at below least
  split_ifs with small
  -- Less than half of the unit is cut off.
  · have half : (part : ℚ) / denominator < 1 / 2 := by
      rw [div_lt_div_iff₀ den (by norm_num)]
      exact_mod_cast (by omega : part * 2 < 1 * denominator)
    constructor <;> linarith
  -- Half of the unit or more is filled up to the next whole number.
  · have half : 1 / 2 ≤ (part : ℚ) / denominator := by
      rw [div_le_div_iff₀ (by norm_num) den]
      exact_mod_cast (by omega : 1 * denominator ≤ part * 2)
    push_cast
    constructor <;> linarith

/-- The magnitude that is chosen for a quotient is the whole number of its direction. -/
theorem magnitude_eq_whole (direction : Direction) (sign : Sign) (numerator : Nat)
    {denominator : Nat} (positive : 0 < denominator) :
    ((direction.magnitude sign (numerator / denominator) (numerator % denominator)
      denominator : Nat) : ℤ) = direction.whole sign ((numerator : ℚ) / denominator) := by
  -- Each direction cuts the fraction off or fills it up, which is a floor or a ceiling.
  have floor : ⌊(numerator : ℚ) / denominator⌋ = ((numerator / denominator : Nat) : ℤ) := by
    obtain ⟨split, below⟩ := quotient_parts numerator positive
    rw [Int.floor_eq_iff, split, Int.cast_natCast]
    have least : (0 : ℚ) ≤ ((numerator % denominator : Nat) : ℚ) / denominator := by positivity
    constructor <;> linarith
  cases direction with
  | down =>
    cases sign with
    | positive => exact floor.symm
    | negative => exact (ceil_quotient numerator positive).symm
  | up =>
    cases sign with
    | positive => exact (ceil_quotient numerator positive).symm
    | negative => exact floor.symm
  | nearestAway => exact (floor_quotient_add_half numerator positive).symm

/-- A number becomes the whole number that a direction assigns to its magnitude, with its sign. -/
theorem denotes_integral (direction : Direction) (sign : Sign) (positive : 0 < mantissa)
    (target : exponent = format.targetExponent (totalExponent mantissa exponent)) :
    Denotes format (integral format direction (.finite sign mantissa exponent positive))
      (signed sign (nearest format (direction.whole sign ((mantissa : ℚ) * 2 ^ exponent)))) := by
  simp only [integral]
  split
  -- A number without a fraction is assigned to itself.
  · rename_i natural
    have integer : (mantissa : ℚ) * 2 ^ exponent = ((mantissa * 2 ^ exponent.toNat : Int) : ℚ) := by
      push_cast
      rw [← zpow_natCast, Int.toNat_of_nonneg natural]
    have denotes : Denotes format (.finite .positive mantissa exponent positive)
        (mantissa * 2 ^ exponent) := .finite .positive positive target
    rw [integer, direction.whole_intCast, ← integer,
      show nearest format ((mantissa : ℚ) * 2 ^ exponent) = _ from denotes.nearest_eq]
    exact .finite sign positive target
  -- Otherwise the mantissa is divided by the unit, and the quotient is rounded once more.
  · rename_i fraction
    have unit : 0 < 1 <<< (-exponent).toNat := Nat.shiftLeft_pos_iff.mpr one_pos
    have rounded := denotes_round format sign
      (direction.magnitude sign (mantissa / 1 <<< (-exponent).toNat)
        (mantissa % 1 <<< (-exponent).toNat) (1 <<< (-exponent).toNat)) 0
    rw [zpow_zero, mul_one] at rounded
    have below : exponent < 0 := by omega
    rw [magnitude_eq_div below, ← magnitude_eq_whole direction sign mantissa unit, Int.cast_natCast]
    exact rounded

/-- A number that is not negative becomes the whole number that the direction assigns to it. -/
theorem Denotes.integral_of_nonneg (denotes : Denotes format u x) (direction : Direction)
    (nonneg : 0 ≤ x) :
    Denotes format (integral format direction u)
      (nearest format (direction.whole .positive x)) := by
  -- A number that is not negative is zero or has the positive sign.
  cases denotes with
  | zero sign =>
    have kept : direction.whole .positive 0 = 0 := by
      simpa using direction.whole_intCast .positive 0
    rw [kept, Int.cast_zero, nearest_zero]
    exact .zero sign
  | finite sign positive target =>
    cases sign with
    | positive => exact denotes_integral direction .positive positive target
    | negative =>
      rename_i m e
      have above := magnitude_pos positive e
      rw [signed] at nonneg
      linarith

/-- A number that is not positive becomes the whole number that the direction assigns to it. -/
theorem Denotes.integral_of_nonpos (denotes : Denotes format u x) (direction : Direction)
    (nonpos : x ≤ 0) :
    Denotes format (integral format direction u)
      (-nearest format (direction.whole .negative (-x))) := by
  -- A number that is not positive is zero or has the negative sign.
  cases denotes with
  | zero sign =>
    have kept : direction.whole .negative (-0) = 0 := by
      simpa using direction.whole_intCast .negative 0
    rw [kept, Int.cast_zero, nearest_zero, neg_zero]
    exact .zero sign
  | finite sign positive target =>
    rename_i m e
    have above := magnitude_pos positive e
    cases sign with
    | positive =>
      rw [signed] at nonpos
      linarith
    | negative =>
      rw [signed, neg_neg]
      exact denotes_integral direction .negative positive target

end Raster.Binary
