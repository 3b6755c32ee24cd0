import Raster.Proofs.Binary.Single

/-!
Singles as rationals, infinities and NaN.  Main statements: `meaning_add` and `meaning_mul`, what
sums and products stand for depends on what their operands stand for alone, and `sameNumber_iff`,
singles are the same number exactly when they stand for the same.
-/

namespace Raster.Binary

open Float.Model (Format UnpackedFloat)
open Float.Model.UnpackedFloat

/-- What a single stands for; zeros of both signs stand for the same. -/
inductive Extended where
  | nan
  | infinite (sign : Sign)
  -- Both zeros are the number zero.
  | number (q : ℚ)

namespace Extended

/-- The sign of a rational that is not zero. -/
def signOf (q : ℚ) : Sign := if q < 0 then .negative else .positive

/-- A rational rounded to 24 digits, infinite from the limit of singles on. -/
def rounded (q : ℚ) : Extended :=
  if |nearest32 q| < 2 ^ 128 then .number (nearest32 q) else .infinite (signOf q)

/-- The sum; infinities of different signs have none. -/
def add : Extended → Extended → Extended
  | .nan, _ => .nan
  | _, .nan => .nan
  -- Infinities of opposite signs have no sum.
  | .infinite s, .infinite t => if s == t then .infinite s else .nan
  | .infinite s, .number _ => .infinite s
  | .number _, .infinite t => .infinite t
  | .number p, .number q => rounded (p + q)

/-- The product; zero and an infinity have none. -/
def mul : Extended → Extended → Extended
  | .nan, _ => .nan
  | _, .nan => .nan
  | .infinite s, .infinite t => .infinite (s * t)
  -- Zero times infinity is no number.
  | .infinite s, .number q => if q = 0 then .nan else .infinite (s * signOf q)
  | .number p, .infinite t => if p = 0 then .nan else .infinite (signOf p * t)
  | .number p, .number q => rounded (p * q)

@[simp] theorem nan_add (v : Extended) : add .nan v = .nan := rfl

@[simp] theorem add_nan (v : Extended) : add v .nan = .nan := by cases v <;> rfl

@[simp] theorem nan_mul (v : Extended) : mul .nan v = .nan := rfl

@[simp] theorem mul_nan (v : Extended) : mul v .nan = .nan := by cases v <;> rfl

/-- What an unpacked number stands for. -/
def ofUnpacked : UnpackedFloat → Extended
  | .notANumber => .nan
  | .infinity sign => .infinite sign
  -- The sign of zero is dropped.
  | .zero _ => .number 0
  | .finite sign mantissa exponent _ => .number (signed sign (mantissa * 2 ^ exponent))

end Extended

open Extended

/-- What a single stands for. -/
def meaning (x : Float32) : Extended := .ofUnpacked x.toModel.unpack

variable {x y : Float32} {p q : ℚ} {u : UnpackedFloat}

/-- A denoted number is what it stands for. -/
theorem ofUnpacked_of_denotes {format : Format} (denotes : Denotes format u q) :
    ofUnpacked u = .number q := by
  cases denotes <;> rfl

/-- NaN stands for itself. -/
theorem meaning_of_notANumber (nan : x.toModel.unpack = .notANumber) : meaning x = .nan := by
  -- The meaning is read off the unpacked form.
  rw [meaning, nan]
  rfl

/-- An infinity stands for itself. -/
theorem meaning_of_infinity {sign : Sign} (infinite : x.toModel.unpack = .infinity sign) :
    meaning x = .infinite sign := by
  rw [meaning, infinite]
  rfl

/-- A single stands for a number exactly when it reads as it. -/
theorem meaning_eq_number_iff : meaning x = .number q ↔ Reads x q := by
  refine ⟨fun same => ?_, ofUnpacked_of_denotes⟩
  -- NaN and infinities stand for no number.
  obtain nan | ⟨sign, infinite⟩ | ⟨p, read⟩ := reads_cases x
  · rw [meaning_of_notANumber nan] at same
    cases same
  · rw [meaning_of_infinity infinite] at same
    cases same
  · have held : meaning x = .number p := ofUnpacked_of_denotes read
    rw [held, Extended.number.injEq] at same
    rwa [same] at read

/-- Only one number is read. -/
theorem Reads.eq (first : Reads x p) (second : Reads x q) : p = q := by
  -- Both are what the same float means.
  have same := (meaning_eq_number_iff.mpr first).symm.trans (meaning_eq_number_iff.mpr second)
  rwa [Extended.number.injEq] at same

/-- A single is finite exactly when it reads as a number. -/
theorem isFinite_iff : x.isFinite = true ↔ ∃ q, Reads x q := by
  have tested : x.isFinite = x.toModel.unpack.isFinite := rfl
  rw [tested]
  unfold Reads
  -- A float is NaN, infinite or a number, and only of a number is the test true.
  obtain nan | ⟨sign, infinite⟩ | ⟨p, read⟩ := reads_cases x
  · rw [nan]
    exact ⟨nofun, nofun⟩
  · rw [infinite]
    exact ⟨nofun, nofun⟩
  · refine ⟨fun _ => ⟨p, read⟩, fun _ => ?_⟩
    unfold Reads at read
    generalize x.toModel.unpack = u at read
    cases read <;> rfl

/-- A signed positive magnitude has its sign. -/
theorem signOf_signed {sign : Sign} (positive : 0 < q) : signOf (signed sign q) = sign := by
  -- The sign put on a positive number is its sign.
  cases sign with
  | positive => exact if_neg (not_lt.mpr positive.le)
  | negative => exact if_pos (neg_lt_zero.mpr positive)

/-- Rounding does not turn a sign. -/
theorem signOf_nearest (nonzero : nearest32 q ≠ 0) : signOf (nearest32 q) = signOf q := by
  -- Rounding keeps the order with zero, so a number that is left keeps its side of it.
  unfold signOf
  congr 1
  apply propext
  constructor
  · intro below
    exact not_le.mp fun nonneg => absurd (nearest_nonneg nonneg) (not_le.mpr below)
  · intro below
    have high : 0 ≤ nearest32 (-q) := nearest_nonneg (neg_nonneg.mpr below.le)
    rw [nearest32, nearest_neg] at high
    exact lt_of_le_of_ne (by linarith) nonzero

/-- A packed number stands for the rational that was rounded, or for an infinity of its sign. -/
theorem meaning_pack (denotes : Denotes .binary32 u (nearest32 q)) :
    meaning (.ofModel (.pack u)) = rounded q := by
  unfold rounded
  split
  · rename_i moderate
    exact meaning_eq_number_iff.mpr (reads_ofModel_pack denotes moderate)
  · rename_i large
    -- What is packed as an infinity keeps its sign.
    generalize same : nearest32 q = r at denotes large
    cases denotes with
    | zero sign => norm_num at large
    | finite sign positive target =>
      rename_i m e
      have magnitude := magnitude_pos positive e
      have nonzero : nearest32 q ≠ 0 := by
        rw [same]
        cases sign <;> simp only [signed] <;> linarith
      rw [← signOf_nearest nonzero, same, signOf_signed magnitude]
      rw [abs_signed, abs_of_pos magnitude, not_lt] at large
      exact congrArg ofUnpacked (unpack_pack_of_le positive target large)

/-- A packed NaN stands for NaN. -/
theorem meaning_pack_nan : meaning (.ofModel (.pack .notANumber)) = .nan :=
  congrArg ofUnpacked unpack_packedNaN

/-- A packed infinity stands for itself. -/
theorem meaning_pack_infinity (sign : Sign) :
    meaning (.ofModel (.pack (.infinity sign))) = .infinite sign :=
  congrArg ofUnpacked unpack_packedInfinity

section Operations

variable {format : Format} {v : UnpackedFloat} (s : Sign)

/-- A number that is added to an infinity does not change it. -/
theorem infinity_add (denotes : Denotes format v q) :
    UnpackedFloat.add format (.infinity s) v = .infinity s := by
  cases denotes <;> rfl

/-- An infinity that is added to a number is left as it is. -/
theorem add_infinity (denotes : Denotes format v q) :
    UnpackedFloat.add format v (.infinity s) = .infinity s := by
  cases denotes <;> rfl

/-- What NaN is added to becomes NaN. -/
theorem add_notANumber (v : UnpackedFloat) :
    UnpackedFloat.add format v .notANumber = .notANumber := by
  cases v <;> rfl

/-- An infinity times zero is NaN, and times any other number an infinity. -/
theorem infinity_mul (denotes : Denotes format v q) :
    UnpackedFloat.mul format (.infinity s) v =
      if q = 0 then .notANumber else .infinity (s * signOf q) := by
  cases denotes with
  | zero t => rfl
  | finite t positive target =>
    rename_i m e
    -- A finite form has a magnitude above zero, so its product with infinity is infinite.
    have magnitude := magnitude_pos positive e
    rw [signOf_signed magnitude, if_neg]
    · rfl
    · cases t <;> simp only [signed] <;> linarith

/-- Zero times an infinity is NaN, and any other number times it an infinity. -/
theorem mul_infinity (denotes : Denotes format v q) :
    UnpackedFloat.mul format v (.infinity s) =
      if q = 0 then .notANumber else .infinity (signOf q * s) := by
  cases denotes with
  | zero t => rfl
  | finite t positive target =>
    rename_i m e
    -- As on the other side, the magnitude is above zero.
    have magnitude := magnitude_pos positive e
    rw [signOf_signed magnitude, if_neg]
    · rfl
    · cases t <;> simp only [signed] <;> linarith

/-- What NaN is multiplied by becomes NaN. -/
theorem mul_notANumber (v : UnpackedFloat) :
    UnpackedFloat.mul format v .notANumber = .notANumber := by
  cases v <;> rfl

end Operations

/-- The sum of two singles stands for the sum of what they stand for. -/
@[simp] theorem meaning_add (x y : Float32) : meaning (x + y) = (meaning x).add (meaning y) := by
  have sum : x + y = .ofModel (.pack (.add .binary32 x.toModel.unpack y.toModel.unpack)) := rfl
  -- NaN and infinities are told apart first; only two numbers are added and rounded.
  rw [sum]
  obtain nan | ⟨s, infinite⟩ | ⟨p, read⟩ := reads_cases x
  · rw [meaning_of_notANumber nan, nan]
    exact meaning_pack_nan
  · rw [meaning_of_infinity infinite, infinite]
    obtain nan | ⟨t, infinite'⟩ | ⟨q, read⟩ := reads_cases y
    · rw [meaning_of_notANumber nan, nan]
      exact meaning_pack_nan
    · rw [meaning_of_infinity infinite', infinite']
      -- Only infinities of one sign have a sum.
      cases s <;> cases t
      · exact meaning_pack_infinity _
      · exact meaning_pack_nan
      · exact meaning_pack_nan
      · exact meaning_pack_infinity _
    · rw [meaning_eq_number_iff.mpr read, infinity_add s read]
      exact meaning_pack_infinity s
  · rw [meaning_eq_number_iff.mpr read]
    obtain nan | ⟨t, infinite⟩ | ⟨q, read'⟩ := reads_cases y
    · rw [meaning_of_notANumber nan, nan, add_notANumber]
      exact meaning_pack_nan
    · rw [meaning_of_infinity infinite, infinite, add_infinity t read]
      exact meaning_pack_infinity t
    · rw [meaning_eq_number_iff.mpr read']
      exact meaning_pack (Denotes.add read read')

/-- The product of two singles stands for the product of what they stand for. -/
@[simp] theorem meaning_mul (x y : Float32) : meaning (x * y) = (meaning x).mul (meaning y) := by
  have product : x * y = .ofModel (.pack (.mul .binary32 x.toModel.unpack y.toModel.unpack)) := rfl
  -- As for sums, only two numbers are multiplied and rounded.
  rw [product]
  obtain nan | ⟨s, infinite⟩ | ⟨p, read⟩ := reads_cases x
  · rw [meaning_of_notANumber nan, nan]
    exact meaning_pack_nan
  · rw [meaning_of_infinity infinite, infinite]
    obtain nan | ⟨t, infinite'⟩ | ⟨q, read⟩ := reads_cases y
    · rw [meaning_of_notANumber nan, nan]
      exact meaning_pack_nan
    · rw [meaning_of_infinity infinite', infinite']
      exact meaning_pack_infinity _
    · rw [meaning_eq_number_iff.mpr read, infinity_mul s read, Extended.mul]
      split
      · exact meaning_pack_nan
      · exact meaning_pack_infinity _
  · rw [meaning_eq_number_iff.mpr read]
    obtain nan | ⟨t, infinite⟩ | ⟨q, read'⟩ := reads_cases y
    · rw [meaning_of_notANumber nan, nan, mul_notANumber]
      exact meaning_pack_nan
    · rw [meaning_of_infinity infinite, infinite, mul_infinity t read, Extended.mul]
      split
      · exact meaning_pack_nan
      · exact meaning_pack_infinity _
    · rw [meaning_eq_number_iff.mpr read']
      exact meaning_pack (Denotes.mul read read')

/-- Only numbers have a sum that is one. -/
theorem Extended.add_eq_number {a b : Extended} (sum : a.add b = .number q) :
    (∃ p, a = .number p) ∧ ∃ r, b = .number r := by
  -- By cases of both terms: with NaN or an infinity the sum is no number.
  cases a with
  | nan => cases sum
  | infinite s =>
    cases b with
    | nan => cases sum
    | infinite t =>
      rw [add] at sum
      split at sum <;> cases sum
    | number r => cases sum
  | number p =>
    cases b with
    | nan => cases sum
    | infinite t => cases sum
    | number r => exact ⟨⟨p, rfl⟩, r, rfl⟩

/-- Only numbers have a product that is one. -/
theorem Extended.mul_eq_number {a b : Extended} (product : a.mul b = .number q) :
    (∃ p, a = .number p) ∧ ∃ r, b = .number r := by
  -- By cases of both factors: with NaN or an infinity the product is no number.
  cases a with
  | nan => cases product
  | infinite s =>
    cases b with
    | nan => cases product
    | infinite t => cases product
    | number r =>
      rw [mul] at product
      split at product <;> cases product
  | number p =>
    cases b with
    | nan => cases product
    | infinite t =>
      rw [mul] at product
      split at product <;> cases product
    | number r => exact ⟨⟨p, rfl⟩, r, rfl⟩

/-- What is no number has no product with zero. -/
theorem Extended.mul_zero_of_endless {a : Extended} (endless : ¬∃ p, a = .number p) :
    a.mul (.number 0) = .nan := by
  -- What is no number is NaN or infinite.
  cases a with
  | nan => rfl
  | infinite s =>
    rw [mul, if_pos rfl]
  | number p => exact absurd ⟨p, rfl⟩ endless

/-- A single is rounded to itself. -/
theorem Extended.rounded_of_reads (read : Reads x p) : rounded p = .number p := by
  have held : nearest32 p = p := Denotes.nearest_eq read
  -- What a float reads as lies below the overflow, so rounding it again is no step.
  have size := read.abs_le_largest.trans_lt (by norm_num [largest32] : largest32 < 2 ^ 128)
  rw [rounded, held, if_pos size]

/-- Every number times zero is zero. -/
@[simp] theorem Extended.number_mul_zero (p : ℚ) : mul (.number p) (.number 0) = .number 0 := by
  -- The product is zero, and rounding keeps it.
  have kept : nearest32 0 = 0 := nearest_zero _
  rw [mul, mul_zero, rounded, kept, if_pos (by norm_num)]

/-- Two singles are both NaN or equal as numbers. -/
def SameNumber (x y : Float32) : Prop := x.isNaN = true ∧ y.isNaN = true ∨ (x == y) = true

instance : Decidable (SameNumber x y) := inferInstanceAs (Decidable (_ ∨ _))

/-- A single is NaN exactly when it stands for NaN. -/
theorem isNaN_iff : x.isNaN = true ↔ meaning x = .nan := by
  have tested : x.isNaN = x.toModel.unpack.isNaN := rfl
  rw [tested, meaning]
  -- The test is true of one form only.
  cases x.toModel.unpack with
  | notANumber => exact ⟨fun _ => rfl, fun _ => rfl⟩
  | infinity sign => exact ⟨nofun, nofun⟩
  | zero sign => exact ⟨nofun, nofun⟩
  | finite sign mantissa exponent positive => exact ⟨nofun, nofun⟩

/-- An infinity is not equal to a number. -/
theorem not_beq_of_infinity {sign : Sign} (infinite : x.toModel.unpack = .infinity sign)
    (read : Reads y q) : ¬(x == y) = true ∧ ¬(y == x) = true := by
  have compared : ∀ z w : Float32, (z == w) =
    (UnpackedFloat.compare z.toModel.unpack w.toModel.unpack == some .eq) := fun _ _ => rfl
  rw [compared, compared, infinite]
  unfold Reads at read
  generalize y.toModel.unpack = v at read
  -- The sign of the infinity says on which side of the number it lies.
  cases sign <;> cases read <;> exact ⟨nofun, nofun⟩

/-- Singles are equal exactly when they stand for the same and are not NaN. -/
theorem beq_iff : (x == y) = true ↔ meaning x = meaning y ∧ meaning x ≠ .nan := by
  have compared : (x == y) =
    (UnpackedFloat.compare x.toModel.unpack y.toModel.unpack == some .eq) := rfl
  -- Numbers are compared as rationals, infinities by their signs, and NaN is equal to nothing.
  obtain nan | ⟨s, infinite⟩ | ⟨p, read⟩ := reads_cases x
  · rw [compared, meaning_of_notANumber nan, nan]
    exact ⟨nofun, fun same => absurd rfl same.2⟩
  · rw [meaning_of_infinity infinite]
    obtain nan | ⟨t, infinite'⟩ | ⟨q, read⟩ := reads_cases y
    · rw [compared, meaning_of_notANumber nan, nan, infinite]
      cases s <;> exact ⟨nofun, nofun⟩
    · rw [compared, meaning_of_infinity infinite', infinite, infinite', Extended.infinite.injEq]
      cases s <;> cases t
      · exact ⟨fun _ => ⟨rfl, nofun⟩, fun _ => rfl⟩
      · exact ⟨nofun, nofun⟩
      · exact ⟨nofun, nofun⟩
      · exact ⟨fun _ => ⟨rfl, nofun⟩, fun _ => rfl⟩
    · rw [meaning_eq_number_iff.mpr read]
      exact iff_of_false (not_beq_of_infinity infinite read).1 nofun
  · rw [meaning_eq_number_iff.mpr read]
    obtain nan | ⟨t, infinite⟩ | ⟨q, read'⟩ := reads_cases y
    · rw [compared, meaning_of_notANumber nan, nan]
      unfold Reads at read
      generalize x.toModel.unpack = u at read
      cases read with
      | zero s => exact ⟨nofun, nofun⟩
      | finite s positive target => cases s <;> exact ⟨nofun, nofun⟩
    · rw [meaning_of_infinity infinite]
      exact iff_of_false (not_beq_of_infinity infinite read).2 nofun
    · rw [compared, meaning_eq_number_iff.mpr read', Denotes.compare_eq read read', beq_iff_eq,
        Option.some.injEq, compare_eq_iff_eq, Extended.number.injEq]
      exact ⟨fun same => ⟨same, nofun⟩, And.left⟩

/-- Singles are the same number exactly when they stand for the same. -/
theorem sameNumber_iff : SameNumber x y ↔ meaning x = meaning y := by
  -- Equal floats mean the same, and NaN, equal to nothing, is the one other case.
  rw [SameNumber, isNaN_iff, isNaN_iff, beq_iff]
  constructor
  · rintro (⟨first, second⟩ | ⟨same, -⟩)
    · rw [first, second]
    · exact same
  · intro same
    by_cases nan : meaning x = .nan
    · exact .inl ⟨nan, same ▸ nan⟩
    · exact .inr ⟨same, nan⟩

end Raster.Binary
