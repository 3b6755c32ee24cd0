import Raster.Proofs.Binary.Packing
import Raster.Scalar

/-!
Signs of doubles.  Main statement: `not_lt_zero_sub`, zero less a number without the negative sign
is not above a positive number.
-/

namespace Raster.Binary

open Float.Model (Format UnpackedFloat)
open Float.Model.UnpackedFloat

variable {format : Format} {u v : UnpackedFloat} {x y : Float}

/-- Rounding a magnitude keeps the sign it is given, also when nothing is left of it. -/
@[simp] theorem sign?_roundWithAccuracy (sign : Sign) (mantissa : Nat) (exponent : Int)
    (accuracy : Accuracy) :
    sign? (roundWithAccuracy format sign mantissa exponent accuracy) = some sign := by
  simp only [roundWithAccuracy]
  split <;> rfl

/-- A product without NaN has the product of the signs. -/
theorem sign?_mul (sign : Sign) (product : sign? (mul format u v) = some sign) :
    ∃ s t, sign? u = some s ∧ sign? v = some t ∧ sign = s * t := by
  cases u <;> cases v <;> simp_all [mul]

/-- A quotient without NaN has the quotient of the signs. -/
theorem sign?_div (sign : Sign) (quotient : sign? (div format u v) = some sign) :
    ∃ s t, sign? u = some s ∧ sign? v = some t ∧ sign = s / t := by
  cases u <;> cases v <;> simp_all [div]

/-- Doubles are compared as the numbers they unpack to. -/
theorem lt_iff_unpack :
    x < y ↔ UnpackedFloat.lt x.toModel.unpack y.toModel.unpack = true :=
  decide_eq_true_iff

/-- A double that does not carry the negative sign; a NaN carries none. -/
def Unsigned (x : Float) : Prop := sign? x.toModel.unpack ≠ some .negative

/-- Natural numbers carry no sign. -/
theorem unsigned_double (n : Nat) : Unsigned (double n) := by
  -- The sign of zero is positive, and a positive number keeps its sign through rounding.
  have kept : sign? (double n).toModel.unpack = sign? (UnpackedFloat.ofNat .binary64 n) :=
    sign?_unpack_pack _
  rw [Unsigned, kept]
  cases n with
  -- Zero is made with the sign that is asked for, the positive one.
  | zero => simp [UnpackedFloat.ofNat, ofInt, UnpackedFloat.normalize]
  | succ n =>
    -- A positive number takes the branch that rounds with the positive sign.
    have above : compare ((n + 1 : Nat) : Int) 0 = .gt := compare_gt_iff_gt.mpr (by omega)
    simp only [UnpackedFloat.ofNat, ofInt, UnpackedFloat.normalize, above, UnpackedFloat.round,
      sign?_roundWithAccuracy]
    simp

/-- Products of numbers without the negative sign are without it. -/
theorem Unsigned.mul (first : Unsigned x) (second : Unsigned y) : Unsigned (x * y) := by
  intro negative
  have kept : sign? (x * y).toModel.unpack =
    sign? (UnpackedFloat.mul .binary64 x.toModel.unpack y.toModel.unpack) := sign?_unpack_pack _
  rw [kept] at negative
  obtain ⟨s, t, left, right, same⟩ := sign?_mul _ negative
  -- Only factors of different signs have a negative product.
  cases s <;> cases t
  · cases same
  · exact first left
  · exact second right
  · cases same

/-- Quotients of numbers without the negative sign are without it. -/
theorem Unsigned.div (first : Unsigned x) (second : Unsigned y) : Unsigned (x / y) := by
  -- Signs multiply, and neither of them is negative.
  intro negative
  have kept : sign? (x / y).toModel.unpack =
    sign? (UnpackedFloat.div .binary64 x.toModel.unpack y.toModel.unpack) := sign?_unpack_pack _
  rw [kept] at negative
  obtain ⟨s, t, left, right, same⟩ := sign?_div _ negative
  cases s <;> cases t
  · cases same
  · exact first left
  · exact second right
  · cases same

/-- Zero less a number is a zero, a NaN, or of the opposite sign. -/
theorem zero_sub_cases (format : Format) (u : UnpackedFloat) :
    (∃ s, sub format (.zero .positive) u = .zero s) ∨
      sign? (sub format (.zero .positive) u) = (sign? u).map (- ·) := by
  -- Subtracting from zero turns the sign, and zero itself stays without the negative one.
  cases u with
  | notANumber => exact .inr rfl
  | infinity s => exact .inr rfl
  | zero s => cases s <;> exact .inl ⟨_, rfl⟩
  | finite s m e positive => exact .inr rfl

/-- No positive number is below a zero, a NaN or a number with the negative sign. -/
theorem lt_eq_false {mantissa : Nat} {exponent : Int} {positive : 0 < mantissa}
    (low : (∃ s, v = .zero s) ∨ sign? v ≠ some .positive) :
    UnpackedFloat.lt (.finite .positive mantissa exponent positive) v = false := by
  -- A number with the negative sign is not above one without it.
  cases v with
  | notANumber => rfl
  | infinity s => cases s <;> simp_all [UnpackedFloat.lt, UnpackedFloat.compare]
  | zero s => cases s <;> rfl
  | finite s m e p => cases s <;> simp_all [UnpackedFloat.lt, UnpackedFloat.compare]

/-- Zero less a number without the negative sign is not above one thousandth. -/
theorem not_lt_zero_sub (unsigned : Unsigned x) :
    Scalar.lt Scalar.thousandth (double 0 - x) = false := by
  have thousandth : (Scalar.thousandth : Float).toModel.unpack =
    .finite .positive 0x10624dd2f1a9fc (-62) (by decide) := rfl
  have below : UnpackedFloat.lt (Scalar.thousandth : Float).toModel.unpack
      (unpack .binary64 (pack .binary64 (sub .binary64 (.zero .positive) x.toModel.unpack))) =
      false := by
    rw [thousandth]
    refine lt_eq_false ?_
    -- Packing keeps a zero a zero and keeps the sign of everything else.
    rcases zero_sub_cases .binary64 x.toModel.unpack with ⟨s, zero⟩ | opposite
    · left
      rw [zero]
      exact ⟨s, unpack_packedZero⟩
    · right
      rw [sign?_unpack_pack, opposite]
      -- A positive difference would have come from a number with the negative sign.
      unfold Unsigned at unsigned
      revert unsigned
      cases sign? x.toModel.unpack with
      | none => simp
      | some s =>
        cases s with
        | negative => simp
        | positive => exact fun _ => nofun
  refine decide_eq_false fun above => ?_
  have held := lt_iff_unpack.mp above
  exact absurd (below.symm.trans held) nofun

end Raster.Binary
