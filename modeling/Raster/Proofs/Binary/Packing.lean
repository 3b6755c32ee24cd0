import Mathlib
import Raster.Binary.Double

/-!
Packed binary numbers.  Main statements: `unpack_pack`, a number in the form its format asks for
survives packing, and `sign?_unpack_pack`, packing keeps the sign of every number.
-/

namespace Raster.Binary

open Float.Model (Format UnpackedFloat totalExponent)
open Float.Model.UnpackedFloat

/-- The sign of a number; a NaN has none. -/
def sign? : UnpackedFloat → Option Sign
  -- NaN has no sign.
  | .notANumber => none
  | .infinity sign => some sign
  | .zero sign => some sign
  | .finite sign _ _ _ => some sign

@[simp] theorem sign?_notANumber : sign? .notANumber = none := rfl

@[simp] theorem sign?_infinity (sign : Sign) : sign? (.infinity sign) = some sign := rfl

@[simp] theorem sign?_zero (sign : Sign) : sign? (.zero sign) = some sign := rfl

@[simp] theorem sign?_finite (sign : Sign) (mantissa : Nat) (exponent : Int)
    (positive : 0 < mantissa) :
    sign? (.finite sign mantissa exponent positive) = some sign := rfl

/-- A mantissa and an exponent in the form in which a format holds them. -/
structure Canonical (format : Format) (mantissa : Nat) (exponent : Int) : Prop where
  target : exponent = format.targetExponent (totalExponent mantissa exponent)
  -- The largest biased exponent is kept for infinities and NaN.
  fits : exponent + format.exponentBias + format.mantissaBitsWithoutImplicit + 1 <
    2 ^ format.exponentBits

variable {format : Format} {sign : Sign} {mantissa : Nat} {exponent : Int}

/-- The least exponent is the one that a biased exponent of one stands for. -/
theorem minExponent_eq (format : Format) :
    format.minExponent = 1 - format.exponentBias - format.mantissaBitsWithoutImplicit := by
  -- Both are the distance from the bias to the last place.
  have positive : 0 < 2 ^ (format.exponentBits - 1) := Nat.two_pow_pos _
  have bias : (format.exponentBias : Int) = 2 ^ (format.exponentBits - 1) - 1 := by
    rw [Format.exponentBias, Nat.cast_sub positive]
    norm_num
  rw [Format.minExponent, Format.mantissaBits, bias]
  push_cast
  ring

/-- The exponents above the bias are as many as those up to it. -/
theorem two_mul_exponentBias (format : Format) :
    2 * format.exponentBias + 2 = 2 ^ format.exponentBits := by
  -- The bias is one less than half the number of biased exponents.
  have positive : 0 < 2 ^ (format.exponentBits - 1) := Nat.two_pow_pos _
  have double : 2 ^ format.exponentBits = 2 * 2 ^ (format.exponentBits - 1) := by
    have bits := format.he
    rw [← Nat.pow_succ']
    congr 1
    omega
  rw [Format.exponentBias, double]
  omega

/-- The bits of the largest biased exponent, which no finite number has, are not those of zero. -/
theorem allOnes_ne_zero (format : Format) : (-1#_ : BitVec format.exponentBits) ≠ 0#_ := by
  -- The exponent has at least one bit.
  rw [ne_comm, ne_eq, BitVec.zero_eq_neg_one_iff]
  exact Nat.ne_of_gt format.he

/-- A packed infinity is read back with its sign. -/
@[simp] theorem unpack_packedInfinity :
    unpack format (packedInfinity format sign) = .infinity sign := by
  simp [unpack, packedInfinity]

/-- A packed number below the least normal one is read back. -/
theorem unpack_subnormal (positive : 0 < mantissa)
    (short : mantissa < 2 ^ format.mantissaBitsWithoutImplicit) :
    unpack format (packComponents format sign 0#_ (BitVec.ofNat _ mantissa)) =
      .finite sign mantissa format.minExponent positive := by
  -- A biased exponent of zero adds no top bit to the mantissa.
  have nonzero : BitVec.ofNat format.mantissaBitsWithoutImplicit mantissa ≠ 0#_ := by
    rw [ne_eq, ← BitVec.toNat_inj, BitVec.toNat_ofNat, Nat.mod_eq_of_lt short]
    simpa using positive.ne'
  simp only [unpack, unpackExponent_packComponents, unpackMantissa_packComponents,
    unpackSign_packComponents, Sign.ofBitVec_toBitVec, (allOnes_ne_zero format).symm, nonzero,
    if_false, if_true, dif_neg, not_false_eq_true, BitVec.toNat_ofNat, Nat.mod_eq_of_lt short]
  congr 1
  rw [minExponent_eq]
  simp
  omega

/-- A packed normal number is read back. -/
theorem unpack_normal {biased : Nat} (positive : 0 < mantissa)
    (long : 2 ^ format.mantissaBitsWithoutImplicit ≤ mantissa)
    (short : mantissa < 2 ^ (format.mantissaBitsWithoutImplicit + 1)) (normal : 0 < biased)
    (fits : biased + 1 < 2 ^ format.exponentBits) :
    unpack format (packComponents format sign (BitVec.ofNat _ biased) (BitVec.ofNat _ mantissa)) =
      .finite sign mantissa (biased - (format.exponentBias + format.mantissaBitsWithoutImplicit))
        positive := by
  -- The biased exponent is neither the one of infinities nor that of numbers below the normal ones.
  have notTop : BitVec.ofNat format.exponentBits biased ≠ -1#_ := by
    rw [BitVec.neg_one_eq_allOnes, ne_eq, ← BitVec.toNat_inj, BitVec.toNat_ofNat,
      Nat.mod_eq_of_lt (by omega), BitVec.toNat_allOnes]
    omega
  have notZero : BitVec.ofNat format.exponentBits biased ≠ 0#_ := by
    rw [ne_eq, ← BitVec.toNat_inj, BitVec.toNat_ofNat, Nat.mod_eq_of_lt (by omega)]
    simpa using normal.ne'
  -- The mantissa's top bit is left out and put back.
  have whole : (1#1 ++ BitVec.ofNat format.mantissaBitsWithoutImplicit mantissa).toNat =
      mantissa := by
    rw [Nat.pow_succ] at short
    have rest : mantissa % 2 ^ format.mantissaBitsWithoutImplicit =
        mantissa - 2 ^ format.mantissaBitsWithoutImplicit := by
      rw [Nat.mod_eq_sub_mod long, Nat.mod_eq_of_lt (by omega)]
    rw [BitVec.toNat_append, ← Nat.shiftLeft_add_eq_or_of_lt (BitVec.isLt _), BitVec.toNat_ofNat,
      BitVec.toNat_ofNat, Nat.shiftLeft_eq, rest]
    omega
  simp only [unpack, unpackExponent_packComponents, unpackMantissa_packComponents,
    unpackSign_packComponents, Sign.ofBitVec_toBitVec, notTop, notZero, if_false, whole,
    BitVec.toNat_ofNat, Nat.mod_eq_of_lt (show biased < 2 ^ format.exponentBits by omega)]

/-- Parts with any biased exponent but the largest are those of a number of their sign. -/
theorem sign?_unpack_packComponents {exponent : BitVec format.exponentBits}
    {mantissa : BitVec format.mantissaBitsWithoutImplicit} (notTop : exponent ≠ -1#_) :
    sign? (unpack format (packComponents format sign exponent mantissa)) = some sign := by
  -- Only the largest biased exponent stands for something without a sign.
  simp only [unpack, unpackExponent_packComponents, unpackMantissa_packComponents,
    unpackSign_packComponents, Sign.ofBitVec_toBitVec, notTop, if_false]
  split
  · split <;> rfl
  · rfl

/-- Packing keeps the sign of a number, whatever becomes of its value. -/
@[simp] theorem sign?_unpack_pack (u : UnpackedFloat) :
    sign? (unpack format (pack format u)) = sign? u := by
  -- A finite number is packed as an infinity or with a biased exponent that is not the largest.
  fun_cases pack with
  | case1 => simp
  | case2 => simp
  | case3 => simp
  | case4 => simp
  -- A normal number has a biased exponent below the largest, as the guard of the case says.
  | case5 s m e hm actualMantissaBits biasedExponent small normal =>
    refine sign?_unpack_packComponents ?_
    rw [BitVec.neg_one_eq_allOnes, ne_eq, ← BitVec.toNat_inj, BitVec.toNat_ofNat,
      Nat.mod_eq_of_lt (by omega), BitVec.toNat_allOnes]
    omega
  -- A number below the normal ones has the biased exponent zero.
  | case6 => exact sign?_unpack_packComponents (allOnes_ne_zero format).symm

/-- A number in the form its format asks for survives packing. -/
theorem unpack_pack (positive : 0 < mantissa) (canonical : Canonical format mantissa exponent) :
    unpack format (pack format (.finite sign mantissa exponent positive)) =
      .finite sign mantissa exponent positive := by
  obtain ⟨target, fits⟩ := canonical
  rw [Format.targetExponent, totalExponent, minExponent_eq, Format.mantissaBits] at target
  have limit : ((2 ^ format.exponentBits : Nat) : Int) = 2 ^ format.exponentBits := by norm_cast
  have small : ¬ 2 ^ format.exponentBits ≤
      (exponent + format.exponentBias + format.mantissaBitsWithoutImplicit).toNat + 1 := by
    omega
  -- A normal mantissa has all its bits; a shorter one comes with the least exponent.
  by_cases normal : mantissa.log2 + 1 = format.mantissaBits
  · rw [Format.mantissaBits] at normal
    have log : mantissa.log2 = format.mantissaBitsWithoutImplicit := by omega
    simp only [pack, small, Format.mantissaBits, normal, if_false, if_true]
    rw [unpack_normal positive (log ▸ Nat.log2_self_le positive.ne')
      (log ▸ Nat.lt_log2_self) (by omega) (by omega)]
    congr 1
    omega
  -- A shorter mantissa is packed with the biased exponent zero.
  · rw [Format.mantissaBits] at normal
    simp only [pack, small, Format.mantissaBits, normal, if_false]
    rw [unpack_subnormal positive ((Nat.log2_lt positive.ne').mp (by omega))]
    congr 1
    rw [minExponent_eq]
    omega

/-- Every packed finite number is in the form its format asks for. -/
theorem canonical_of_unpack (wide : 1 < format.exponentBits) {bits : BitVec format.numBits}
    {positive : 0 < mantissa}
    (unpacked : unpack format bits = .finite sign mantissa exponent positive) :
    Canonical format mantissa exponent := by
  have limit : ((2 ^ format.exponentBits : Nat) : Int) = 2 ^ format.exponentBits := by norm_cast
  have four : 2 ^ 2 ≤ 2 ^ format.exponentBits := Nat.pow_le_pow_right (by omega) wide
  simp only [unpack] at unpacked
  split at unpacked
  -- The largest biased exponent gives no finite number.
  · split at unpacked <;> simp at unpacked
  rename_i notTop
  split at unpacked
  · split at unpacked
    · simp at unpacked
    -- A mantissa without its top bit has the least exponent.
    · rename_i zero nonzero
      rw [UnpackedFloat.finite.injEq] at unpacked
      obtain ⟨-, sameMantissa, sameExponent⟩ := unpacked
      have short : mantissa < 2 ^ format.mantissaBitsWithoutImplicit := by
        rw [← sameMantissa]
        exact BitVec.isLt _
      have log := (Nat.log2_lt positive.ne').mpr short
      rw [zero, BitVec.toNat_zero] at sameExponent
      constructor
      · rw [Format.targetExponent, totalExponent, minExponent_eq, Format.mantissaBits]
        omega
      · omega
  -- A normal mantissa is as long as the format allows, so its exponent is the target.
  · rename_i notZero
    rw [UnpackedFloat.finite.injEq] at unpacked
    obtain ⟨-, sameMantissa, sameExponent⟩ := unpacked
    have log : mantissa.log2 = format.mantissaBitsWithoutImplicit := by
      rw [BitVec.toNat_append, ← Nat.shiftLeft_add_eq_or_of_lt (BitVec.isLt _),
        Nat.shiftLeft_eq] at sameMantissa
      have rest := (unpackMantissa bits).isLt
      rw [Nat.log2_eq_iff positive.ne', Nat.pow_succ]
      simp only [BitVec.toNat_ofNat] at sameMantissa
      omega
    -- The biased exponent is neither the least nor the largest, so the exponent is in range.
    have low : (unpackExponent bits).toNat ≠ 0 := fun same =>
      notZero (BitVec.toNat_inj.mp (by simpa using same))
    have high : (unpackExponent bits).toNat ≠ 2 ^ format.exponentBits - 1 := fun same =>
      notTop (BitVec.toNat_inj.mp (by simpa [BitVec.neg_one_eq_allOnes] using same))
    have bound := (unpackExponent bits).isLt
    constructor
    · rw [Format.targetExponent, totalExponent, minExponent_eq, Format.mantissaBits]
      omega
    · omega

end Raster.Binary
