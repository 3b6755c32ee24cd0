import Raster.Proofs.Binary.Whole

/-!
Singles as rationals.  Main statements: `Reads.add`, `Reads.mul` and `Reads.div`, results are the
exact ones rounded to 24 digits, and `Reads.lt_iff`, comparisons are those of the rationals.
-/

namespace Raster.Binary

open Float.Model (Format UnpackedFloat totalExponent)
open Float.Model.UnpackedFloat

/-- The single is the given rational; infinities and NaN are none. -/
def Reads (x : Float32) (q : ℚ) : Prop := Denotes .binary32 x.toModel.unpack q

/-- A single is NaN, an infinity or a rational. -/
theorem reads_cases (x : Float32) : x.toModel.unpack = .notANumber ∨
    (∃ sign, x.toModel.unpack = .infinity sign) ∨ ∃ q, Reads x q := by
  -- The bits of a single stand for NaN, an infinity or a number.
  obtain infinite | nan | number :=
    denotes_unpack .binary32 (by decide) x.toModel.toBits.toBitVec
  · exact .inr (.inl infinite)
  · exact .inl nan
  · exact .inr (.inr number)

/-- The rational nearest to another among those of 24 digits. -/
abbrev nearest32 (q : ℚ) : ℚ := nearest .binary32 q

variable {x y : Float32} {p q : ℚ}

/-- A single packed from a number below the limit of singles is that number. -/
theorem reads_ofModel_pack {u : UnpackedFloat} (denotes : Denotes .binary32 u q)
    (moderate : |q| < 2 ^ 128) : Reads (.ofModel (.pack u)) q := by
  -- What does not overflow is unpacked as it was packed.
  have kept : (Float32.Model.pack u).unpack = u := denotes.unpack_pack (by decide) moderate
  rw [Reads, kept]
  exact denotes

/-- The sum of two singles is rounded once. -/
theorem Reads.add (first : Reads x p) (second : Reads y q)
    (moderate : |nearest32 (p + q)| < 2 ^ 128) : Reads (x + y) (nearest32 (p + q)) :=
  reads_ofModel_pack (Denotes.add first second) moderate

/-- The product of two singles is rounded once. -/
theorem Reads.mul (first : Reads x p) (second : Reads y q)
    (moderate : |nearest32 (p * q)| < 2 ^ 128) : Reads (x * y) (nearest32 (p * q)) :=
  reads_ofModel_pack (Denotes.mul first second) moderate

/-- The quotient of two singles is rounded once. -/
theorem Reads.div (first : Reads x p) (second : Reads y q) (nonzero : q ≠ 0)
    (moderate : |nearest32 (p / q)| < 2 ^ 128) : Reads (x / y) (nearest32 (p / q)) :=
  reads_ofModel_pack (Denotes.div first second nonzero) moderate

/-- A number divided by an infinity is zero. -/
theorem Reads.div_infinity {sign : Sign} (first : Reads x p)
    (infinite : y.toModel.unpack = .infinity sign) : Reads (x / y) 0 := by
  -- Whatever number is divided, the quotient is a zero.
  show Reads (.ofModel (.pack (UnpackedFloat.div .binary32 x.toModel.unpack y.toModel.unpack))) 0
  rw [infinite]
  unfold Reads at first
  generalize x.toModel.unpack = u at first
  cases first <;> exact reads_ofModel_pack (.zero _) (by norm_num)

/-- A natural number is rounded once. -/
theorem reads_single (n : Nat) (moderate : |nearest32 n| < 2 ^ 128) :
    Reads (single n) (nearest32 n) :=
  reads_ofModel_pack (denotes_ofNat n) moderate

/-- A count that is too large for singles becomes infinite. -/
theorem unpack_single_of_le {n : Nat} (large : 2 ^ 128 ≤ nearest32 n) :
    (single n).toModel.unpack = .infinity .positive := by
  -- A natural number has no negative sign, so only the positive infinity is left.
  have denotes : Denotes .binary32 (ofNat .binary32 n) (nearest32 n) := denotes_ofNat n
  generalize nearest32 n = q at denotes large
  show (Float32.Model.pack (ofNat .binary32 n)).unpack = _
  generalize ofNat .binary32 n = u at denotes
  cases denotes with
  | zero => norm_num at large
  | finite sign positive target =>
    rename_i mantissa exponent
    have above := magnitude_pos positive exponent
    cases sign with
    | positive => exact unpack_pack_of_le positive target large
    | negative =>
      rw [signed] at large
      linarith

/-- Rounding to 24 digits moves a number by at most a half of the last place below a power of two
above it. -/
theorem nearest32_near {k : ℤ} (nonneg : 0 ≤ q) (below : q < 2 ^ k) (least : -125 ≤ k) :
    |nearest32 q - q| ≤ 2 ^ (k - 24) / 2 :=
  abs_nearest_sub_le_of_lt (by rwa [abs_of_nonneg nonneg]) least

/-- Natural numbers of at most 24 digits are singles. -/
theorem nearest32_natCast {n : Nat} (short : n < 2 ^ 24) : nearest32 n = n :=
  nearest_natCast .binary32 (by decide) short

/-- Reading a natural number of at most 24 digits. -/
theorem reads_single_of_lt {n : Nat} (short : n < 2 ^ 24) : Reads (single n) n := by
  -- A number of few digits is not rounded.
  have same := nearest32_natCast short
  have read := reads_single n (by
    rw [same, abs_of_nonneg (Nat.cast_nonneg _)]
    exact_mod_cast short.trans (by norm_num))
  rwa [same] at read

/-- What is a natural number of at most 24 digits behind some point is not rounded. -/
theorem reads_div_two_pow {n j : Nat} (exact : q = n / 2 ^ j) (short : n < 2 ^ 24)
    (places : j ≤ 149) (rounded : |nearest32 q| < 2 ^ 128 → Reads x (nearest32 q)) :
    Reads x (n / 2 ^ j) := by
  -- With few digits and places the rounded number is the exact one, which does not overflow.
  have held : nearest32 q = n / 2 ^ j := by
    rw [exact]
    have least : Format.binary32.minExponent = -149 := rfl
    exact nearest_div_two_pow .binary32 short (by omega)
  have digits : (n : ℚ) / 2 ^ j ≤ n :=
    div_le_self (Nat.cast_nonneg n) (one_le_pow₀ (by norm_num))
  have few : (n : ℚ) < 2 ^ 24 := by exact_mod_cast short
  rw [held, abs_of_nonneg (by positivity)] at rounded
  exact rounded (by linarith)

/-- Singles are compared by what they unpack to. -/
theorem lt_iff_unpack_single :
    x < y ↔ UnpackedFloat.lt x.toModel.unpack y.toModel.unpack = true :=
  decide_eq_true_iff

/-- One single is below another exactly when it is so as a rational. -/
theorem Reads.lt_iff (first : Reads x p) (second : Reads y q) : x < y ↔ p < q :=
  lt_iff_unpack_single.trans (Denotes.lt_iff first second)

/-- A byte is read as the number that it is. -/
theorem reads_toFloat32 (byte : UInt8) : Reads byte.toFloat32 byte.toNat :=
  reads_single_of_lt (byte.toNat_lt.trans (by norm_num))

/-- The largest single. -/
def largest32 : ℚ := ((2 ^ 24 - 1 : ℤ) : ℚ) * 2 ^ (104 : ℤ)

/-- No single is larger in magnitude than the largest. -/
theorem Reads.abs_le_largest (read : Reads x q) : |q| ≤ largest32 := by
  -- A mantissa has at most 24 digits, and the exponent is at most 104.
  unfold Reads at read
  generalize unpacked : x.toModel.unpack = u at read
  cases read with
  | zero sign => norm_num [largest32]
  | finite sign positive target =>
    rename_i m e
    have canonical : Canonical .binary32 m e := canonical_of_unpack (by decide) unpacked
    have fits := canonical.fits
    obtain ⟨short, -, -⟩ := short_of_target positive target
    have power : e ≤ 104 := by
      have bias : (Format.binary32.exponentBias : Int) = 127 := rfl
      norm_num [bias] at fits
      omega
    rw [abs_signed, abs_of_pos (magnitude_pos positive e)]
    refine mul_le_mul ?_ (zpow_le_zpow_right₀ (by norm_num) power) (two_zpow_pos e).le
      (by norm_num)
    have digits : m < 2 ^ 24 := short
    have : (m : ℤ) ≤ 2 ^ 24 - 1 := by omega
    exact_mod_cast this

/-- The largest single is whole, so resolving a half upwards does not pass it. -/
theorem nearest32_whole_lt (nonneg : 0 ≤ q) (below : q ≤ largest32) :
    |nearest32 ⌊q + 1 / 2⌋| < 2 ^ 128 := by
  -- The largest single is whole, so it bounds the resolved number before and after rounding.
  have held : nearest32 largest32 = largest32 :=
    nearest_eq_self .binary32 (by decide) (by decide)
  have whole : (⌊q + 1 / 2⌋ : ℚ) ≤ largest32 := by
    have integral : largest32 = (((2 ^ 24 - 1) * 2 ^ 104 : ℤ) : ℚ) := by norm_num [largest32]
    rw [integral] at below ⊢
    have floor : ⌊q + 1 / 2⌋ < (2 ^ 24 - 1) * 2 ^ 104 + 1 := by
      rw [Int.floor_lt]
      push_cast at below ⊢
      linarith
    exact_mod_cast Int.lt_add_one_iff.mp floor
  have rounded := nearest_mono .binary32 whole
  rw [abs_of_nonneg (nearest_nonneg (by exact_mod_cast Int.floor_nonneg.mpr (by linarith)))]
  exact (rounded.trans_eq held).trans_lt (by norm_num [largest32])

/-- Resolving a single that is not negative to a whole number, halves away from zero. -/
theorem Reads.wholeSingle_of_nonneg (read : Reads x q) (nonneg : 0 ≤ q) :
    Reads (wholeSingle .nearestAway x) (nearest32 ⌊q + 1 / 2⌋) :=
  -- Rounding to a whole number does not pass the largest single.
  reads_ofModel_pack (read.integral_of_nonneg .nearestAway nonneg)
    (nearest32_whole_lt nonneg ((le_abs_self q).trans read.abs_le_largest))

/-- Resolving a single that is not positive to a whole number, halves away from zero. -/
theorem Reads.wholeSingle_of_nonpos (read : Reads x q) (nonpos : q ≤ 0) :
    Reads (wholeSingle .nearestAway x) (-nearest32 ⌊-q + 1 / 2⌋) := by
  -- The magnitude is rounded and the sign put back.
  refine reads_ofModel_pack (read.integral_of_nonpos .nearestAway nonpos) ?_
  rw [abs_neg]
  exact nearest32_whole_lt (by linarith) ((neg_le_abs q).trans read.abs_le_largest)

/-- Infinity and NaN are not below any number. -/
theorem not_lt_of_endless
    (endless : x.toModel.unpack = .notANumber ∨ x.toModel.unpack = .infinity .positive)
    (read : Reads y q) : ¬x < y := by
  -- The comparison fails on NaN, and on the infinity it does not look at the number.
  rw [lt_iff_unpack_single]
  unfold Reads at read
  generalize y.toModel.unpack = v at read
  rcases endless with nan | infinite
  · rw [nan]
    cases read <;> exact Bool.false_ne_true
  · rw [infinite]
    cases read <;> exact Bool.false_ne_true

/-- The negative infinity is below every number. -/
theorem lt_of_negative_infinity (infinite : x.toModel.unpack = .infinity .negative)
    (read : Reads y q) : x < y := by
  rw [lt_iff_unpack_single, infinite]
  unfold Reads at read
  generalize y.toModel.unpack = v at read
  -- Both forms of a number lie above it.
  cases read <;> rfl

/-- No number is below the negative infinity. -/
theorem not_lt_negative_infinity (infinite : x.toModel.unpack = .infinity .negative)
    (read : Reads y q) : ¬y < x := by
  rw [lt_iff_unpack_single, infinite]
  unfold Reads at read
  generalize y.toModel.unpack = v at read
  -- Both forms of a number lie above it.
  cases read <;> exact Bool.false_ne_true

/-- What is no number stays what it is when it is resolved to a whole number. -/
theorem unpack_wholeSingle (direction : Direction)
    (special : x.toModel.unpack = .notANumber ∨ ∃ sign, x.toModel.unpack = .infinity sign) :
    (wholeSingle direction x).toModel.unpack = x.toModel.unpack := by
  -- Resolving passes on what is no number, and packing keeps it.
  show (Float32.Model.pack (integral .binary32 direction x.toModel.unpack)).unpack = _
  rcases special with nan | ⟨sign, infinite⟩
  · rw [nan]
    exact unpack_packedNaN
  · rw [infinite]
    exact unpack_packedInfinity

end Raster.Binary
