import Raster.Proofs.Binary.Rounding

/-!
Arithmetic on unpacked numbers.  Main statements: `Denotes.add`, `Denotes.sub`, `Denotes.mul` and
`Denotes.div`, each result is the exact one rounded to the format, and `Denotes.lt_iff`.
-/

namespace Raster.Binary

open Float.Model (Format UnpackedFloat totalExponent)
open Float.Model.UnpackedFloat

variable {format : Format} {u v : UnpackedFloat} {x y : ℚ}
variable {mantissa : Nat} {exponent : Int}

/-- The mantissa of a number in the form its format asks for has no more digits than the format. -/
theorem short_of_target (positive : 0 < mantissa)
    (target : exponent = format.targetExponent (totalExponent mantissa exponent)) :
    mantissa < 2 ^ format.mantissaBits ∧ format.minExponent ≤ exponent ∧
      (exponent = format.minExponent ∨ 2 ^ (format.mantissaBits - 1) ≤ mantissa) := by
  -- The target exponent leaves room for all bits of the mantissa, or it is the least exponent.
  rw [Format.targetExponent, totalExponent] at target
  have bits : 1 ≤ format.mantissaBits := by
    rw [Format.mantissaBits]
    omega
  refine ⟨(Nat.log2_lt positive.ne').mp (by omega), by omega, ?_⟩
  -- Above the least exponent, the exponent is the one that the digits ask for.
  by_cases least : exponent = format.minExponent
  · exact .inl least
  · exact .inr ((Nat.le_log2 positive.ne').mp (by omega))

/-- A number at or above the limit of its format is packed as an infinity. -/
theorem unpack_pack_of_le {sign : Sign} (positive : 0 < mantissa)
    (target : exponent = format.targetExponent (totalExponent mantissa exponent))
    (large : (2 : ℚ) ^ (format.exponentBias + 1) ≤ mantissa * 2 ^ exponent) :
    unpack format (pack format (.finite sign mantissa exponent positive)) = .infinity sign := by
  -- A short mantissa reaches the limit only with a biased exponent that packing refuses.
  obtain ⟨short, -, -⟩ := short_of_target positive target
  have below : (mantissa : ℚ) * 2 ^ exponent < 2 ^ ((format.mantissaBits : ℤ) + exponent) := by
    rw [zpow_add₀ (by norm_num), zpow_natCast]
    exact mul_lt_mul_of_pos_right (by exact_mod_cast short) (two_zpow_pos exponent)
  rw [← zpow_natCast] at large
  have exponents := (zpow_lt_zpow_iff_right₀ (by norm_num)).mp (large.trans_lt below)
  have bias := two_mul_exponentBias format
  rw [Format.mantissaBits] at exponents
  push_cast at exponents
  simp only [pack]
  rw [if_pos (by omega), unpack_packedInfinity]

/-- What a format denotes it need not round. -/
theorem Denotes.nearest_eq (denotes : Denotes format u x) : nearest format x = x := by
  -- A number of the format has few digits and none below the least exponent.
  cases denotes with
  | zero => exact nearest_zero format
  | finite sign positive target =>
    rename_i mantissa exponent
    obtain ⟨short, least, -⟩ := short_of_target positive target
    have held := nearest_eq_self format (n := mantissa) (e := exponent)
      (by rw [abs_of_nonneg (Int.natCast_nonneg _)]; exact_mod_cast short) least
    rw [Int.cast_natCast] at held
    cases sign with
    | positive => exact held
    | negative => rw [signed, nearest_neg, held]

/-- A signed mantissa with its exponent lowered is the number that it was. -/
theorem apply_decreaseExponent (sign : Sign) (mantissa : Nat) (exponent target : Int)
    (low : target ≤ exponent) :
    ((sign.apply (decreaseExponent mantissa exponent target).1 : ℤ) : ℚ) * 2 ^ target =
      signed sign (mantissa * 2 ^ exponent) := by
  -- Lowering an exponent multiplies the mantissa and keeps the value.
  have value := decreaseExponent_value mantissa exponent target
  have lowered : (decreaseExponent mantissa exponent target).2 = target := by
    simp only [decreaseExponent]
    omega
  rw [lowered] at value
  rw [← value]
  cases sign <;> simp [Sign.apply, signed]

/-- Adding numbers of a format gives their sum, rounded to it. -/
theorem Denotes.add (first : Denotes format u x) (second : Denotes format v y) :
    Denotes format (add format u v) (nearest format (x + y)) := by
  -- A zero adds nothing; otherwise both mantissas are brought to one exponent and added.
  cases first with
  | zero s =>
    -- The second number is left as it is, and it needs no rounding.
    rw [zero_add, second.nearest_eq]
    cases second with
    | zero t =>
      -- Two zeros make a zero, whichever sign it gets.
      simp only [UnpackedFloat.add]
      split <;> exact .zero _
    | finite t positive target => exact .finite t positive target
  | finite s positive target =>
    cases second with
    | zero t =>
      -- The first number is left as it is.
      rw [add_zero, (Denotes.finite s positive target).nearest_eq]
      exact .finite s positive target
    | finite t positive' target' =>
      rename_i m e n f
      -- At the smaller of the exponents both mantissas are whole, so their sum is exact.
      have sum := denotes_normalize format
        (s.apply (decreaseExponent m e (min e f)).1 + t.apply (decreaseExponent n f (min e f)).1)
        (min e f) .positive
      rw [Int.cast_add, add_mul, apply_decreaseExponent s m e _ (min_le_left e f),
        apply_decreaseExponent t n f _ (min_le_right e f)] at sum
      exact sum

/-- Negation changes the sign and nothing else. -/
theorem signed_neg (sign : Sign) (x : ℚ) : signed (-sign) x = -signed sign x := by
  cases sign with
  | positive => rfl
  | negative => exact (neg_neg x).symm

/-- Subtracting numbers of a format gives their difference, rounded to it. -/
theorem Denotes.sub (first : Denotes format u x) (second : Denotes format v y) :
    Denotes format (sub format u v) (nearest format (x - y)) := by
  -- As for sums, with the sign of the second number turned.
  cases first with
  | zero s =>
    -- The second number is left with its sign turned.
    rw [zero_sub, nearest_neg, second.nearest_eq]
    cases second with
    | zero t =>
      rw [neg_zero]
      -- Two zeros make a zero here too.
      simp only [UnpackedFloat.sub]
      split <;> exact .zero _
    | finite t positive target =>
      rw [← signed_neg]
      exact .finite (-t) positive target
  | finite s positive target =>
    cases second with
    | zero t =>
      -- The first number is left as it is.
      rw [sub_zero, (Denotes.finite s positive target).nearest_eq]
      exact .finite s positive target
    | finite t positive' target' =>
      rename_i m e n f
      -- At the smaller of the exponents the difference of the mantissas is exact.
      have difference := denotes_normalize format
        (s.apply (decreaseExponent m e (min e f)).1 - t.apply (decreaseExponent n f (min e f)).1)
        (min e f) .positive
      rw [Int.cast_sub, sub_mul, apply_decreaseExponent s m e _ (min_le_left e f),
        apply_decreaseExponent t n f _ (min_le_right e f)] at difference
      exact difference

/-- The sign of a product is the product of the signs. -/
theorem signed_mul (s t : Sign) (x y : ℚ) :
    signed s x * signed t y = signed (s * t) (x * y) := by
  -- By the signs of both factors.
  cases s <;> cases t
  · exact neg_mul_neg x y
  · exact neg_mul x y
  · exact mul_neg x y
  · rfl

/-- Rounding keeps a sign. -/
theorem nearest_signed (sign : Sign) (x : ℚ) :
    nearest format (signed sign x) = signed sign (nearest format x) := by
  cases sign with
  | positive => rfl
  | negative => exact nearest_neg format x

/-- Multiplying numbers of a format gives their product, rounded to it. -/
theorem Denotes.mul (first : Denotes format u x) (second : Denotes format v y) :
    Denotes format (mul format u v) (nearest format (x * y)) := by
  cases first with
  | zero s =>
    -- A product with zero is a zero, whatever the other factor is.
    rw [zero_mul, nearest_zero]
    cases second <;> exact .zero _
  | finite s positive target =>
    cases second with
    | zero t =>
      rw [mul_zero, nearest_zero]
      exact .zero _
    | finite t positive' target' =>
      rename_i m e n f
      obtain ⟨-, least, long⟩ := short_of_target positive target
      obtain ⟨-, least', long'⟩ := short_of_target positive' target'
      -- A factor with all its digits leaves enough of them; two least exponents add up to less.
      have enough : e + f ≤ format.targetExponent (totalExponent (m * n) (e + f)) := by
        have bits := format.hm
        have digits : 2 ^ (format.mantissaBits - 1) ≤ m * n →
            format.mantissaBits - 1 ≤ (m * n).log2 :=
          (Nat.le_log2 (Nat.mul_pos positive positive').ne').mpr
        rw [Format.targetExponent, totalExponent]
        rcases long with low | high
        · rcases long' with low' | high'
          · rw [minExponent_eq] at *
            omega
          · have := digits (high'.trans (Nat.le_mul_of_pos_left n positive))
            omega
        · have := digits (high.trans (Nat.le_mul_of_pos_right m positive'))
          omega
      -- Nothing is lost before the one rounding at the end.
      have exact_product : (m : ℚ) * 2 ^ e * (n * 2 ^ f) = (m * n : Nat) * 2 ^ (e + f) := by
        rw [zpow_add₀ (by norm_num)]
        push_cast
        ring
      rw [signed_mul, nearest_signed, exact_product]
      exact denotes_roundWithAccuracy (s * t)
        (mul_nonneg (Nat.cast_nonneg _) (two_zpow_pos _).le) (represents_exact _ _) enough

/-- A quotient of naturals is a natural number and a fraction below one. -/
theorem quotient_parts (numerator : Nat) {denominator : Nat} (positive : 0 < denominator) :
    (numerator : ℚ) / denominator =
        (numerator / denominator : Nat) + (numerator % denominator : Nat) / denominator ∧
      ((numerator % denominator : Nat) : ℚ) / denominator < 1 := by
  -- This is division with remainder, divided by the denominator.
  have den : (0 : ℚ) < denominator := by exact_mod_cast positive
  constructor
  · rw [div_eq_iff den.ne', add_mul, div_mul_cancel₀ _ den.ne']
    exact_mod_cast (Nat.div_add_mod' numerator denominator).symm
  · rw [div_lt_one den]
    exact_mod_cast Nat.mod_lt _ positive

/-- A quotient of naturals is represented by its whole part and where its remainder lies. -/
theorem represents_fraction (numerator : Nat) {denominator : Nat} (positive : 0 < denominator) :
    Represents (.ofMantissaAndAccuracy (numerator / denominator)
      (accuracyOfFraction (numerator % denominator) denominator))
      ((numerator : ℚ) / denominator) := by
  -- The whole part is the quotient, and the remainder tells on which side of a half the rest is.
  have den : (0 : ℚ) < denominator := by exact_mod_cast positive
  obtain ⟨split, below⟩ := quotient_parts numerator positive
  rw [split]
  unfold accuracyOfFraction
  split
  -- Without a remainder the quotient is whole.
  · rename_i empty
    rw [empty, Nat.cast_zero, zero_div, add_zero]
    rfl
  · rename_i positive
    have above : 0 < ((numerator % denominator : Nat) : ℚ) / denominator :=
      div_pos (by exact_mod_cast Nat.pos_of_ne_zero positive) den
    cases order : compare (2 * (numerator % denominator)) denominator with
    | lt =>
      -- The remainder stays below half of the denominator.
      have half : ((numerator % denominator : Nat) : ℚ) / denominator < 1 / 2 := by
        rw [div_lt_div_iff₀ den (by norm_num)]
        have := compare_lt_iff_lt.mp order
        exact_mod_cast (by omega : numerator % denominator * 2 < 1 * denominator)
      exact ⟨by dsimp only [ExtendedMantissa.ofMantissaAndAccuracy]; linarith,
        by dsimp only [ExtendedMantissa.ofMantissaAndAccuracy]; linarith⟩
    | eq =>
      -- The remainder is half of the denominator.
      have half : ((numerator % denominator : Nat) : ℚ) / denominator = 1 / 2 := by
        rw [div_eq_div_iff den.ne' (by norm_num)]
        have := compare_eq_iff_eq.mp order
        exact_mod_cast (by omega : numerator % denominator * 2 = 1 * denominator)
      rw [half]
      rfl
    | gt =>
      -- The remainder passes half of the denominator, and it is below the denominator.
      have half : 1 / 2 < ((numerator % denominator : Nat) : ℚ) / denominator := by
        rw [div_lt_div_iff₀ (by norm_num) den]
        have := compare_gt_iff_gt.mp order
        exact_mod_cast (by omega : 1 * denominator < numerator % denominator * 2)
      exact ⟨by dsimp only [ExtendedMantissa.ofMantissaAndAccuracy]; linarith,
        by dsimp only [ExtendedMantissa.ofMantissaAndAccuracy]; linarith⟩

/-- A quotient is taken at an exponent low enough for all the digits that the format keeps. -/
theorem divCore_enough {m n : Nat} (positive : 0 < m) (positive' : 0 < n) (e f : Int) :
    (divCore format m e n f).2.1 ≤ format.targetExponent
      (totalExponent (divCore format m e n f).1 (divCore format m e n f).2.1) := by
  simp only [divCore]
  generalize chosen : min (e - f)
    (format.targetExponent (totalExponent m e - totalExponent n f)) = t
  rw [Format.targetExponent, totalExponent]
  -- No target is below the least exponent, so only a larger one needs digits.
  rcases le_or_gt t format.minExponent with low | high
  · omega
  · have early : t ≤ m.log2 + e - (n.log2 + f) - format.mantissaBits := by
      rw [Format.targetExponent, totalExponent, totalExponent] at chosen
      omega
    have bits : 1 ≤ format.mantissaBits := by
      rw [Format.mantissaBits]
      omega
    -- The dividend then has that many digits more than the divisor.
    have digits : format.mantissaBits - 1 ≤ (m <<< (e - f - t).toNat / n).log2 := by
      have top : 2 ^ (format.mantissaBits - 1) * n ≤ m <<< (e - f - t).toNat := by
        have shifted : (m <<< (e - f - t).toNat).log2 = m.log2 + (e - f - t).toNat :=
          log2_shiftLeft positive _
        calc 2 ^ (format.mantissaBits - 1) * n
            ≤ 2 ^ (format.mantissaBits - 1) * 2 ^ (n.log2 + 1) :=
              Nat.mul_le_mul_left _ Nat.lt_log2_self.le
          _ = 2 ^ (format.mantissaBits - 1 + (n.log2 + 1)) := (Nat.pow_add ..).symm
          _ ≤ 2 ^ (m <<< (e - f - t).toNat).log2 := by
              refine Nat.pow_le_pow_right (by omega) ?_
              rw [shifted]
              omega
          _ ≤ m <<< (e - f - t).toNat :=
              Nat.log2_self_le (Nat.shiftLeft_pos_iff.mpr positive).ne'
      have quotient := (Nat.le_div_iff_mul_le positive').mpr top
      exact (Nat.le_log2 (by have := Nat.two_pow_pos (format.mantissaBits - 1); omega)).mpr quotient
    omega

/-- A quotient of mantissas represents the quotient of the numbers. -/
theorem represents_divCore {m n : Nat} (positive : 0 < n) (e f : Int) :
    Represents (.ofMantissaAndAccuracy (divCore format m e n f).1 (divCore format m e n f).2.2)
      ((m : ℚ) * 2 ^ e / (n * 2 ^ f) / 2 ^ (divCore format m e n f).2.1) := by
  -- Division shifts the numerator first, so that the quotient has enough digits.
  simp only [divCore]
  generalize chosen : min (e - f)
    (format.targetExponent (totalExponent m e - totalExponent n f)) = t
  have low : t ≤ e - f := chosen ▸ min_le_left _ _
  have scaled : (m : ℚ) * 2 ^ e / (n * 2 ^ f) / 2 ^ t =
      ((m <<< (e - f - t).toNat : Nat) : ℚ) / n := by
    -- The numerator is shifted by what the two exponents differ in from the one chosen.
    have power : (2 : ℚ) ^ e = 2 ^ (e - f - t).toNat * 2 ^ f * 2 ^ t := by
      rw [← zpow_natCast, ← zpow_add₀ (by norm_num), ← zpow_add₀ (by norm_num)]
      congr 1
      omega
    have den : (n : ℚ) ≠ 0 := by exact_mod_cast positive.ne'
    rw [Nat.shiftLeft_eq, power]
    push_cast
    field_simp
  rw [scaled]
  exact represents_fraction _ positive

/-- The sign of a quotient is the quotient of the signs. -/
theorem signed_div (s t : Sign) (x y : ℚ) :
    signed s x / signed t y = signed (s / t) (x / y) := by
  -- By the signs of dividend and divisor.
  cases s <;> cases t
  · exact neg_div_neg_eq x y
  · exact neg_div y x
  · exact div_neg x
  · rfl

/-- Dividing numbers of a format gives their quotient, rounded to it. -/
theorem Denotes.div (first : Denotes format u x) (second : Denotes format v y) (nonzero : y ≠ 0) :
    Denotes format (div format u v) (nearest format (x / y)) := by
  -- The quotient of the magnitudes is rounded once, and its sign is the product of the signs.
  cases second with
  -- A zero divisor is excluded.
  | zero t => exact absurd rfl nonzero
  | finite t positive' target' =>
    cases first with
    | zero s =>
      -- Zero stays zero under division.
      rw [zero_div, nearest_zero]
      exact .zero _
    | finite s positive target =>
      rename_i n f m e
      rw [signed_div, nearest_signed]
      exact denotes_roundWithAccuracy (s / t)
        (div_nonneg (mul_nonneg (Nat.cast_nonneg _) (two_zpow_pos _).le)
          (mul_nonneg (Nat.cast_nonneg _) (two_zpow_pos _).le))
        (represents_divCore positive' _ _) (divCore_enough positive positive' _ _)

/-- Natural numbers are rounded to the format. -/
theorem denotes_ofNat (n : Nat) : Denotes format (ofNat format n) (nearest format n) := by
  -- A natural number is a mantissa whose exponent is zero.
  have rounded := denotes_normalize format n 0 .positive
  rw [zpow_zero, mul_one, Int.cast_natCast] at rounded
  exact rounded

/-- A number with a larger exponent in the form of its format is larger. -/
theorem lt_of_exponent_lt {m n : Nat} {e f : Int} (positive : 0 < m) (positive' : 0 < n)
    (target : e = format.targetExponent (totalExponent m e))
    (target' : f = format.targetExponent (totalExponent n f)) (order : e < f) :
    (m : ℚ) * 2 ^ e < n * 2 ^ f := by
  -- A number above the least exponent has all its digits, so it exceeds all shorter ones.
  obtain ⟨short, least, -⟩ := short_of_target positive target
  obtain ⟨-, -, long⟩ := short_of_target positive' target'
  -- The larger exponent is not the least one.
  have full : 2 ^ (format.mantissaBits - 1) ≤ n := by
    rcases long with low | high
    · omega
    · exact high
  have bits : 1 ≤ format.mantissaBits := by
    rw [Format.mantissaBits]
    omega
  calc (m : ℚ) * 2 ^ e < 2 ^ format.mantissaBits * 2 ^ e :=
        mul_lt_mul_of_pos_right (by exact_mod_cast short) (two_zpow_pos e)
    _ = 2 ^ ((format.mantissaBits : ℤ) + e) := by rw [zpow_add₀ (by norm_num), zpow_natCast]
    _ ≤ 2 ^ (((format.mantissaBits - 1 : Nat) : ℤ) + f) :=
        zpow_le_zpow_right₀ (by norm_num) (by omega)
    _ = 2 ^ (format.mantissaBits - 1) * 2 ^ f := by rw [zpow_add₀ (by norm_num), zpow_natCast]
    _ ≤ n * 2 ^ f := mul_le_mul_of_nonneg_right (by exact_mod_cast full) (two_zpow_pos f).le

/-- Magnitudes in the form of a format are compared by their exponents and then their mantissas. -/
theorem compare_magnitudes {m n : Nat} {e f : Int} (positive : 0 < m) (positive' : 0 < n)
    (target : e = format.targetExponent (totalExponent m e))
    (target' : f = format.targetExponent (totalExponent n f)) :
    (compare e f).then (compare m n) = compare ((m : ℚ) * 2 ^ e) (n * 2 ^ f) := by
  -- Exponents decide where they differ, and mantissas where they agree.
  rcases lt_trichotomy e f with less | same | greater
  -- The smaller exponent belongs to the smaller number.
  · rw [compare_lt_iff_lt.mpr less,
      compare_lt_iff_lt.mpr (lt_of_exponent_lt positive positive' target target' less)]
    rfl
  · subst same
    rw [compare_eq_iff_eq.mpr rfl]
    show compare m n = _
    -- A common factor does not change the order of the mantissas.
    have power := two_zpow_pos e
    rcases lt_trichotomy m n with less | rfl | greater
    · rw [compare_lt_iff_lt.mpr less, compare_lt_iff_lt.mpr
        (mul_lt_mul_of_pos_right (by exact_mod_cast less) power)]
    · rw [compare_eq_iff_eq.mpr rfl, compare_eq_iff_eq.mpr rfl]
    · rw [compare_gt_iff_gt.mpr greater, compare_gt_iff_gt.mpr
        (mul_lt_mul_of_pos_right (by exact_mod_cast greater) power)]
  · rw [compare_gt_iff_gt.mpr greater,
      compare_gt_iff_gt.mpr (lt_of_exponent_lt positive' positive target' target greater)]
    rfl

/-- Among negative numbers the order of the magnitudes is turned round. -/
theorem compare_neg (a b : ℚ) : compare (-a) (-b) = (compare a b).swap := by
  -- Negation turns each of the three orders around.
  rcases lt_trichotomy a b with less | rfl | greater
  · rw [compare_lt_iff_lt.mpr less, compare_gt_iff_gt.mpr (neg_lt_neg less)]
    rfl
  · rw [compare_eq_iff_eq.mpr rfl, compare_eq_iff_eq.mpr rfl]
    rfl
  · rw [compare_gt_iff_gt.mpr greater, compare_lt_iff_lt.mpr (neg_lt_neg greater)]
    rfl

/-- A mantissa that is not zero makes a positive magnitude. -/
theorem magnitude_pos (positive : 0 < mantissa) (exponent : Int) :
    (0 : ℚ) < mantissa * 2 ^ exponent :=
  mul_pos (by exact_mod_cast positive) (two_zpow_pos exponent)

/-- Numbers of a format are compared as the rationals that they are. -/
theorem Denotes.compare_eq (first : Denotes format u x) (second : Denotes format v y) :
    UnpackedFloat.compare u v = some (compare x y) := by
  -- Signs decide where they differ; magnitudes are compared otherwise.
  cases first with
  | zero s =>
    cases second with
    | zero t => rw [compare_eq_iff_eq.mpr rfl]; rfl
    | finite t positive' target' =>
      rename_i n f
      -- Zero lies below the positive numbers and above the negative ones.
      have above := magnitude_pos positive' f
      cases t with
      | positive => rw [signed, compare_lt_iff_lt.mpr above]; rfl
      | negative => rw [signed, compare_gt_iff_gt.mpr (neg_lt_zero.mpr above)]; rfl
  | finite s positive target =>
    rename_i m e
    have above := magnitude_pos positive e
    cases second with
    | zero t =>
      cases s with
      | positive => rw [signed, compare_gt_iff_gt.mpr above]; rfl
      | negative => rw [signed, compare_lt_iff_lt.mpr (neg_lt_zero.mpr above)]; rfl
    | finite t positive' target' =>
      rename_i n f
      have above' := magnitude_pos positive' f
      have magnitudes := compare_magnitudes positive positive' target target'
      -- Equal signs compare magnitudes, in reverse for negative ones; different signs decide.
      cases s <;> cases t
      · rw [signed, signed, compare_neg, ← magnitudes]
        rfl
      · rw [signed, signed, compare_lt_iff_lt.mpr (by linarith)]; rfl
      · rw [signed, signed, compare_gt_iff_gt.mpr (by linarith)]; rfl
      · rw [signed, signed, ← magnitudes]; rfl

/-- One number of a format is below another exactly when it is so as a rational. -/
theorem Denotes.lt_iff (first : Denotes format u x) (second : Denotes format v y) :
    UnpackedFloat.lt u v = true ↔ x < y := by
  -- The comparison of the forms is that of the numbers.
  rw [UnpackedFloat.lt, first.compare_eq second, ← compare_lt_iff_lt]
  cases compare x y <;> decide

end Raster.Binary
