import Raster.Element
import Raster.Proofs.Binary.Double

/-!
The byte stored for a single or a double.  Main statements: `ofSingle_eq_iff`, a byte stands for the
singles that are at most a half below it and less than a half above it, and `toNat_ofDouble`, a
double that is not negative is stored as the nearest byte.
-/

namespace Raster.Byte

open Binary

variable {x : Float32} {q : ℚ}

/-- A whole single between zero and 256 is truncated to the byte that it is. -/
theorem toUInt8_of_reads {k : Nat} (read : Reads x k) (short : k < 256) :
    x.toUInt8.toNat = k := by
  -- Truncation takes the floor, and the number is whole and in range.
  have truncated : x.toModel.unpack.toInt 0 (UInt8.size - 1) = k := by
    rw [toInt_of_denotes read (Nat.cast_nonneg k)]
    exact_mod_cast Int.floor_natCast (R := ℚ) k
  show (UInt8.ofNatClamp (x.toModel.unpack.toInt 0 (UInt8.size - 1)).toNat).toNat = k
  rw [truncated, Int.toNat_natCast, UInt8.ofNatClamp, dif_pos short]
  rfl

/-- A whole single that is not negative is put in range. -/
theorem clamp_of_reads {k : Nat} (read : Reads x (nearest32 k)) : (clamp x).toNat = min 255 k := by
  -- Comparisons with the ends of the range are those of the rationals.
  have limit : Reads (single 255) (255 : Nat) := reads_single_of_lt (by norm_num)
  have zero : Reads (single 0) (0 : Nat) := reads_single_of_lt (by norm_num)
  unfold clamp
  -- Below 255 the number is a byte, and only zero is not above zero.
  by_cases low : k < 255
  · rw [nearest32_natCast (low.trans (by norm_num))] at read
    rw [if_pos ((read.lt_iff limit).mpr (by exact_mod_cast low))]
    by_cases positive : 0 < k
    · rw [if_pos ((zero.lt_iff read).mpr (by exact_mod_cast positive)),
        toUInt8_of_reads read (by omega)]
      omega
    · rw [if_neg fun above => positive (by exact_mod_cast (zero.lt_iff read).mp above)]
      simp
      omega
  -- From 255 on rounding does not bring it below the largest byte.
  · have held := nearest32_natCast (n := 255) (by norm_num)
    have order : ((255 : Nat) : ℚ) ≤ nearest32 k := by
      rw [← held]
      exact nearest_mono .binary32 (by exact_mod_cast not_lt.mp low)
    rw [if_neg fun below => absurd ((read.lt_iff limit).mp below) (not_lt.mpr order)]
    simp
    omega

/-- A single that is not positive is put in range at zero. -/
theorem clamp_of_nonpos (read : Reads x q) (nonpos : q ≤ 0) : clamp x = 0 := by
  -- The number is below 255 and not above zero.
  have limit : Reads (single 255) (255 : Nat) := reads_single_of_lt (by norm_num)
  have zero : Reads (single 0) (0 : Nat) := reads_single_of_lt (by norm_num)
  have below : q < (255 : Nat) := nonpos.trans_lt (by norm_num)
  have low : ¬single 0 < x := fun above =>
    absurd ((zero.lt_iff read).mp above) (not_lt.mpr (by exact_mod_cast nonpos))
  rw [clamp, if_pos ((read.lt_iff limit).mpr below), if_neg low]

/-- The byte stored for a number that is not negative is the nearest one, halves rounded up. -/
theorem ofSingle_of_nonneg (read : Reads x q) (nonneg : 0 ≤ q) :
    (ofSingle x).toNat = min 255 ⌊q + 1 / 2⌋.toNat := by
  -- The number is resolved to a natural number before it is put in range.
  have whole := read.wholeSingle_of_nonneg nonneg
  have natural : ((⌊q + 1 / 2⌋ : ℤ) : ℚ) = (⌊q + 1 / 2⌋.toNat : ℚ) := by
    have := Int.toNat_of_nonneg (Int.floor_nonneg.mpr (show (0 : ℚ) ≤ q + 1 / 2 by linarith))
    exact_mod_cast this.symm
  rw [natural] at whole
  exact clamp_of_reads whole

/-- The byte stored for a number that is not positive is zero. -/
theorem ofSingle_of_nonpos (read : Reads x q) (nonpos : q ≤ 0) : ofSingle x = 0 := by
  -- Rounded to a whole number it is not above zero, and the clamp makes it zero.
  refine clamp_of_nonpos (read.wholeSingle_of_nonpos nonpos) (neg_nonpos.mpr ?_)
  exact nearest_nonneg (by exact_mod_cast Int.floor_nonneg.mpr (by linarith : 0 ≤ -q + 1 / 2))

/-- The nearest byte to a number that is not negative is at most a half above it and less than a
half below it, the least and the largest byte standing for what lies beyond them too. -/
theorem min_floor_eq_iff (nonneg : 0 ≤ q) {k : Nat} (short : k ≤ 255) :
    min 255 ⌊q + 1 / 2⌋.toNat = k ↔ (k = 0 ∨ k - 1 / 2 ≤ q) ∧ (k = 255 ∨ q < k + 1 / 2) := by
  -- Both comparisons are ones with the floor that is put in range.
  have least : 0 ≤ ⌊q + 1 / 2⌋ := Int.floor_nonneg.mpr (by linarith)
  have low : (k : ℚ) - 1 / 2 ≤ q ↔ (k : ℤ) ≤ ⌊q + 1 / 2⌋ := by
    rw [Int.le_floor, Int.cast_natCast, sub_le_iff_le_add]
  have high : q < k + 1 / 2 ↔ ⌊q + 1 / 2⌋ < k + 1 := by
    rw [Int.floor_lt]
    push_cast
    constructor <;> intro <;> linarith
  rw [low, high]
  omega

/-- A number is stored as a byte that it is at most a half below and less than a half above; the
least and the largest byte also stand for what lies beyond them. -/
theorem toNat_ofSingle_eq_iff (read : Reads x q) {k : Nat} (short : k ≤ 255) :
    (ofSingle x).toNat = k ↔ (k = 0 ∨ k - 1 / 2 ≤ q) ∧ (k = 255 ∨ q < k + 1 / 2) := by
  -- Being nearest is a statement about one floor, which is zero for numbers below zero.
  rcases le_total 0 q with nonneg | nonpos
  · rw [ofSingle_of_nonneg read nonneg]
    exact min_floor_eq_iff nonneg short
  -- Zero is stored for all that is not positive, and no other byte is so near to it.
  · rw [ofSingle_of_nonpos read nonpos]
    rcases Nat.eq_zero_or_pos k with rfl | positive
    · have below : q < (0 : Nat) + 1 / 2 := nonpos.trans_lt (by norm_num)
      exact ⟨fun _ => ⟨.inl rfl, .inr below⟩, fun _ => rfl⟩
    · have one : (1 : ℚ) ≤ k := by exact_mod_cast positive
      refine ⟨fun least => ?_, fun ⟨low, _⟩ => ?_⟩
      · rw [← least] at positive
        cases positive
      · rcases low with least | low
        · omega
        · linarith

/-- Singles that read as one number are stored as one byte. -/
theorem ofSingle_congr {y : Float32} (first : Reads x q) (second : Reads y q) :
    ofSingle x = ofSingle y := by
  -- The byte is determined by the number that the single reads as.
  have short := Nat.le_of_lt_succ (ofSingle y).toNat_lt
  exact UInt8.toNat_inj.mp ((toNat_ofSingle_eq_iff first short).mpr
    ((toNat_ofSingle_eq_iff second short).mp rfl))

/-- The byte stored for a double that is not negative is the nearest one, halves rounded up. -/
theorem toNat_ofDouble {x : Float} (read : ReadsDouble x q) (nonneg : 0 ≤ q)
    (short : q + 1 / 2 < 2 ^ 53) : (ofDouble x).toNat = min 255 ⌊q + 1 / 2⌋.toNat := by
  have natural : ((⌊q + 1 / 2⌋.toNat : ℤ) : ℚ) = ⌊q + 1 / 2⌋ := by
    rw [Int.toNat_of_nonneg (Int.floor_nonneg.mpr (by linarith))]
  have digits : ⌊q + 1 / 2⌋.toNat < 2 ^ 53 := by
    have below : ⌊q + 1 / 2⌋ < 2 ^ 53 := Int.floor_lt.mpr (by push_cast; exact short)
    omega
  rw [Int.cast_natCast] at natural
  generalize ⌊q + 1 / 2⌋.toNat = k at natural digits ⊢
  -- The nearest whole number has few digits, so it is a double, and narrowing rounds it once.
  have whole := read.wholeDouble .nearestAway nonneg (by
    show Moderate (⌊q + 1 / 2⌋ : ℚ)
    rw [← natural]
    exact moderate_natCast digits)
  have direction : ((Direction.nearestAway.whole .positive q : ℤ) : ℚ) = k := natural.symm
  rw [direction, nearest64_natCast digits] at whole
  refine clamp_of_reads (whole.narrow ?_)
  have most : |(k : ℚ)| ≤ 2 ^ (53 : ℤ) := by
    rw [Nat.abs_cast]
    exact_mod_cast digits.le
  exact (abs_nearest_le (by decide) most).trans_lt (by norm_num)

/-- The halves around a byte's number are singles. -/
theorem reads_half {n : Nat} (short : n < 2 ^ 24) : Reads (single n / single 2) (n / 2) := by
  -- Halving only lowers the exponent, so the quotient is not rounded.
  have read := reads_div_two_pow (j := 1) (by norm_num) short (by norm_num)
    ((reads_single_of_lt short).div (reads_single_of_lt (n := 2) (by norm_num)) (by norm_num))
  rwa [pow_one] at read

/-- The singles that a byte is stored for, those beyond the bytes and NaN included. -/
def Keeps (byte : UInt8) (x : Float32) : Prop :=
  (byte = 0 ∨ ¬x < single (2 * byte.toNat - 1) / single 2) ∧
    (byte = 255 ∨ x < single (2 * byte.toNat + 1) / single 2)

/-- What lies above all numbers and NaN are stored as the largest byte. -/
theorem ofSingle_of_endless
    (endless : x.toModel.unpack = .notANumber ∨ x.toModel.unpack = .infinity .positive) :
    ofSingle x = 255 := by
  -- Nothing beyond the numbers is below 255, and resolving leaves it beyond them.
  have whole : (wholeSingle .nearestAway x).toModel.unpack = x.toModel.unpack :=
    unpack_wholeSingle .nearestAway (endless.imp_right fun infinite => ⟨_, infinite⟩)
  rw [← whole] at endless
  rw [ofSingle, clamp, if_neg (not_lt_of_endless endless (reads_single_of_lt (by norm_num)))]

/-- What lies below all numbers is stored as zero. -/
theorem ofSingle_of_negative_infinity (infinite : x.toModel.unpack = .infinity .negative) :
    ofSingle x = 0 := by
  -- The negative infinity is below 255 and not above zero.
  have whole : (wholeSingle .nearestAway x).toModel.unpack = .infinity .negative :=
    (unpack_wholeSingle .nearestAway (.inr ⟨_, infinite⟩)).trans infinite
  rw [ofSingle, clamp,
    if_pos (lt_of_negative_infinity whole (reads_single_of_lt (n := 255) (by norm_num))),
    if_neg (not_lt_negative_infinity whole (reads_single_of_lt (n := 0) (by norm_num)))]

/-- A byte is stored for a single exactly when it is the nearest one, halves rounded up. -/
theorem ofSingle_eq_iff {byte : UInt8} : ofSingle x = byte ↔ Keeps byte x := by
  -- NaN and the infinities are compared as if they lay beyond all numbers.
  have limit := byte.toNat_lt
  have lower := reads_half (n := 2 * byte.toNat - 1) (by omega)
  have upper := reads_half (n := 2 * byte.toNat + 1) (by omega)
  unfold Keeps
  rcases reads_cases x with nan | ⟨sign, infinite⟩ | ⟨q, read⟩
  · simp [ofSingle_of_endless (.inl nan), not_lt_of_endless (.inl nan) lower,
      not_lt_of_endless (.inl nan) upper, eq_comm]
  · cases sign with
    | positive =>
      simp [ofSingle_of_endless (.inr infinite), not_lt_of_endless (.inr infinite) lower,
        not_lt_of_endless (.inr infinite) upper, eq_comm]
    | negative =>
      simp [ofSingle_of_negative_infinity infinite, lt_of_negative_infinity infinite lower,
        lt_of_negative_infinity infinite upper, eq_comm]
  -- A number is compared with the two halves around the byte.
  · have zero : byte = 0 ↔ byte.toNat = 0 := UInt8.toNat_inj.symm
    have last : byte = 255 ↔ byte.toNat = 255 := UInt8.toNat_inj.symm
    have below : (((2 * byte.toNat + 1 : Nat) : ℚ)) / 2 = byte.toNat + 1 / 2 := by
      push_cast
      ring
    rw [← UInt8.toNat_inj, toNat_ofSingle_eq_iff read (by omega), zero, last,
      Reads.lt_iff read lower, Reads.lt_iff read upper, below, not_lt]
    refine and_congr_left fun _ => or_congr_right' fun positive => ?_
    have above : (((2 * byte.toNat - 1 : Nat) : ℚ)) / 2 = byte.toNat - 1 / 2 := by
      rw [Nat.cast_sub (by omega)]
      push_cast
      ring
    rw [above]

end Raster.Byte
