import Raster.Proofs.Binary.Single
import Raster.Scalar

/-!
Doubles as rationals.  Main statements: `ReadsDouble.add`, `ReadsDouble.mul` and `ReadsDouble.div`,
results are the exact ones rounded to 53 digits, and `ReadsDouble.narrow`, a double is rounded once
more to become a single.
-/

namespace Raster.Binary

open Float.Model (Format UnpackedFloat)
open Float.Model.UnpackedFloat

/-- The single that sums start from is zero. -/
theorem reads_zero : Reads (Scalar.zero : Float32) 0 := by
  exact_mod_cast reads_single_of_lt (n := 0) (by norm_num)

/-- The single that weights are taken from is one. -/
theorem reads_one : Reads (Scalar.one : Float32) 1 := by
  exact_mod_cast reads_single_of_lt (n := 1) (by norm_num)

/-- The double is the given rational; infinities and NaN are none. -/
def ReadsDouble (x : Float) (q : ℚ) : Prop := Denotes .binary64 x.toModel.unpack q

/-- The rational nearest to another among those of 53 digits. -/
abbrev nearest64 (q : ℚ) : ℚ := nearest .binary64 q

/-- A rational that rounding to 53 digits does not take near the limit of doubles. -/
def Moderate (q : ℚ) : Prop := |q| ≤ 2 ^ 1000

variable {x y : Float} {p q : ℚ}

/-- What is moderate stays below the limit of doubles when it is rounded. -/
theorem Moderate.nearest64_lt (moderate : Moderate q) : |nearest64 q| < 2 ^ (1023 + 1) := by
  -- The bound is a power of two, which rounding does not pass.
  have rounded : |nearest64 q| ≤ 2 ^ (1000 : ℤ) := abs_nearest_le (by decide) moderate
  refine rounded.trans_lt ?_
  rw [← zpow_natCast]
  exact zpow_lt_zpow_right₀ (by norm_num) (by norm_num)

/-- Numbers of at most 64 binary digits are moderate. -/
theorem moderate_of_le (nonneg : 0 ≤ q) (high : q ≤ 2 ^ 64) : Moderate q := by
  rw [Moderate, abs_of_nonneg nonneg]
  -- Such numbers are small beside the largest double.
  exact high.trans (pow_le_pow_right₀ (by norm_num) (by norm_num))

/-- A double packed from a number whose exact value is moderate is the rounded number. -/
theorem readsDouble_ofModel_pack {u : UnpackedFloat} (denotes : Denotes .binary64 u (nearest64 q))
    (moderate : Moderate q) : ReadsDouble (.ofModel (.pack u)) (nearest64 q) := by
  -- Below the limit, packing loses nothing.
  have kept : (Float.Model.pack u).unpack = u :=
    denotes.unpack_pack (by decide) moderate.nearest64_lt
  rw [ReadsDouble, kept]
  exact denotes

/-- The sum of two doubles is rounded once. -/
theorem ReadsDouble.add (first : ReadsDouble x p) (second : ReadsDouble y q)
    (moderate : Moderate (p + q)) : ReadsDouble (x + y) (nearest64 (p + q)) :=
  readsDouble_ofModel_pack (Denotes.add first second) moderate

/-- The difference of two doubles is rounded once. -/
theorem ReadsDouble.sub (first : ReadsDouble x p) (second : ReadsDouble y q)
    (moderate : Moderate (p - q)) : ReadsDouble (x - y) (nearest64 (p - q)) :=
  readsDouble_ofModel_pack (Denotes.sub first second) moderate

/-- The product of two doubles is rounded once. -/
theorem ReadsDouble.mul (first : ReadsDouble x p) (second : ReadsDouble y q)
    (moderate : Moderate (p * q)) : ReadsDouble (x * y) (nearest64 (p * q)) :=
  readsDouble_ofModel_pack (Denotes.mul first second) moderate

/-- The quotient of two doubles is rounded once. -/
theorem ReadsDouble.div (first : ReadsDouble x p) (second : ReadsDouble y q) (nonzero : q ≠ 0)
    (moderate : Moderate (p / q)) : ReadsDouble (x / y) (nearest64 (p / q)) :=
  readsDouble_ofModel_pack (Denotes.div first second nonzero) moderate

/-- Rounding to 53 digits moves a number by at most a half of the last place below a power of two
above it. -/
theorem nearest64_near {k : ℤ} (nonneg : 0 ≤ q) (below : q < 2 ^ k) (least : -1021 ≤ k) :
    |nearest64 q - q| ≤ 2 ^ (k - 53) / 2 :=
  abs_nearest_sub_le_of_lt (by rwa [abs_of_nonneg nonneg]) least

/-- Natural numbers of at most 53 digits are doubles. -/
theorem nearest64_natCast {n : Nat} (short : n < 2 ^ 53) : nearest64 n = n :=
  nearest_natCast .binary64 (by decide) short

/-- A natural number of at most 53 digits that is not above a rational is not above its double. -/
theorem natCast_le_nearest64 {n : Nat} (short : n < 2 ^ 53) (order : n ≤ q) :
    n ≤ nearest64 q := by
  -- The number is a double itself, and rounding keeps the order.
  rw [← nearest64_natCast short]
  exact nearest_mono .binary64 order

/-- A natural number of at most 53 digits that is not below a rational is not below its double. -/
theorem nearest64_le_natCast {n : Nat} (short : n < 2 ^ 53) (order : q ≤ n) :
    nearest64 q ≤ n := by
  -- A natural number of 53 digits rounds to itself, and rounding is monotone.
  rw [← nearest64_natCast short]
  exact nearest_mono .binary64 order

/-- A natural number of at most 53 digits is moderate. -/
theorem moderate_natCast {n : Nat} (short : n < 2 ^ 53) : Moderate n :=
  moderate_of_le (Nat.cast_nonneg n) (by exact_mod_cast short.le.trans (by norm_num))

/-- Reading a natural number of at most 53 digits. -/
theorem readsDouble_double {n : Nat} (short : n < 2 ^ 53) : ReadsDouble (double n) n := by
  -- A number of few digits is not rounded.
  rw [← nearest64_natCast short]
  exact readsDouble_ofModel_pack (denotes_ofNat n) (moderate_natCast short)

/-- What is half of a natural number of at most 53 digits is not rounded. -/
theorem readsDouble_div_two {n : Nat} (exact : q = n / 2) (short : n < 2 ^ 53)
    (rounded : Moderate q → ReadsDouble x (nearest64 q)) : ReadsDouble x (n / 2) := by
  -- A half of such a number has one binary digit after the point.
  have held : nearest64 q = q := by
    rw [exact, ← pow_one (2 : ℚ)]
    exact nearest_div_two_pow .binary64 short (by decide)
  have digits : (n : ℚ) < 2 ^ 53 := by exact_mod_cast short
  have read := rounded (moderate_of_le (exact ▸ by positivity) (by linarith))
  rwa [held, exact] at read

/-- One half is a double. -/
theorem readsDouble_half : ReadsDouble Scalar.half ((1 : Nat) / 2) :=
  readsDouble_div_two (by norm_num) (by norm_num) ((readsDouble_double (n := 1) (by norm_num)).div
    (readsDouble_double (n := 2) (by norm_num)) (by norm_num))

/-- A multiple of a natural number is divided by it without rounding. -/
theorem readsDouble_mul_div {m k : Nat} (left : 0 < m) (right : 0 < k) (short : m * k < 2 ^ 53) :
    ReadsDouble (double (m * k) / double m) k := by
  have divisor : (m : ℚ) ≠ 0 := by exact_mod_cast left.ne'
  -- Both factors are at most the product, so they are doubles, too.
  have first := Nat.le_mul_of_pos_right m right
  have second := Nat.le_mul_of_pos_left k left
  have quotient : ((m * k : Nat) : ℚ) / m = k := by
    rw [Nat.cast_mul, mul_div_cancel_left₀ _ divisor]
  have read := (readsDouble_double short).div (readsDouble_double (n := m) (by omega)) divisor (by
    rw [quotient]
    exact moderate_natCast (by omega))
  rwa [quotient, nearest64_natCast (by omega)] at read

/-- One double is below another exactly when it is so as a rational. -/
theorem ReadsDouble.lt_iff (first : ReadsDouble x p) (second : ReadsDouble y q) :
    x < y ↔ p < q :=
  (decide_eq_true_iff : _ ↔ _).trans (Denotes.lt_iff first second)

/-- The smaller of two doubles is the smaller of the rationals. -/
theorem ReadsDouble.smaller (first : ReadsDouble x p) (second : ReadsDouble y q) :
    ReadsDouble (Scalar.smaller x y) (min p q) := by
  -- The second one is taken only when it is below the first.
  unfold Scalar.smaller
  split_ifs with less
  · have order : q < p := (second.lt_iff first).mp (of_decide_eq_true less)
    rwa [min_eq_right order.le]
  · have order : ¬q < p := fun order => less (decide_eq_true ((second.lt_iff first).mpr order))
    rwa [min_eq_left (not_lt.mp order)]

/-- A double that is not negative becomes the whole number that a direction assigns to it. -/
theorem ReadsDouble.wholeDouble (read : ReadsDouble x q) (direction : Direction) (nonneg : 0 ≤ q)
    (moderate : Moderate (direction.whole .positive q)) :
    ReadsDouble (wholeDouble direction x) (nearest64 (direction.whole .positive q)) :=
  readsDouble_ofModel_pack (read.integral_of_nonneg direction nonneg) moderate

/-- A natural number of at most 64 digits is truncated to itself. -/
theorem ReadsDouble.toIndex {n : Nat} (read : ReadsDouble x n) (short : n < 2 ^ 64) :
    toIndex x = n := by
  -- Truncation takes the floor, and the number is whole and in range.
  have truncated : x.toModel.unpack.toInt 0 (UInt64.size - 1) = n := by
    rw [toInt_of_denotes read (Nat.cast_nonneg n)]
    exact_mod_cast Int.floor_natCast (R := ℚ) n
  show (UInt64.ofNatClamp (x.toModel.unpack.toInt 0 (UInt64.size - 1)).toNat).toNat = n
  rw [truncated, Int.toNat_natCast, UInt64.ofNatClamp,
    dif_pos (show n < UInt64.size from short)]
  rfl

/-- A natural number of at most 63 digits is truncated to itself as a coordinate too. -/
theorem ReadsDouble.toCoordinate {n : Nat} (read : ReadsDouble x n) (short : n < 2 ^ 63) :
    toCoordinate x = n := by
  -- As for an index, the number is whole and in range.
  have truncated : ∀ low high, x.toModel.unpack.toInt low high = n := fun low high => by
    rw [toInt_of_denotes read (Nat.cast_nonneg n)]
    exact_mod_cast Int.floor_natCast (R := ℚ) n
  have least : Int64.minValue.toInt = -2 ^ 63 := rfl
  have most : Int64.maxValue.toInt = 2 ^ 63 - 1 := rfl
  show (Int64.ofIntClamp (x.toModel.unpack.toInt _ _)).toInt = n
  rw [truncated, Int64.toInt_ofIntClamp (by omega) (by omega)]

/-- A double whose whole number in some direction has at most 53 digits gives that as an index. -/
theorem ReadsDouble.toIndex_wholeDouble (read : ReadsDouble x q) (direction : Direction)
    (nonneg : 0 ≤ q) {n : Nat} (whole : direction.whole .positive q = n) (short : n < 2 ^ 53) :
    Binary.toIndex (Binary.wholeDouble direction x) = n := by
  -- The whole number is a double, so the second rounding leaves it alone.
  have resolved := read.wholeDouble direction nonneg (by
    rw [whole]
    exact_mod_cast moderate_natCast short)
  rw [whole, Int.cast_natCast, nearest64_natCast short] at resolved
  exact resolved.toIndex (short.trans (by norm_num))

/-- A number of one format is rounded once to become one of another. -/
theorem denotes_convert {format format' : Format} {u : UnpackedFloat}
    (denotes : Denotes format u q) : Denotes format' (convert format' u) (nearest format' q) := by
  -- Rounding keeps the sign, so it is the magnitude that is rounded.
  cases denotes with
  | zero sign =>
    rw [nearest_zero]
    exact .zero sign
  | finite sign positive target =>
    rw [nearest_signed]
    exact denotes_round format' sign _ _

/-- Narrowing a double rounds it to 24 digits. -/
theorem ReadsDouble.narrow (read : ReadsDouble x q) (moderate : |nearest32 q| < 2 ^ 128) :
    Reads (narrow x) (nearest32 q) :=
  reads_ofModel_pack (denotes_convert read) moderate

/-- Half of a natural number of at most 24 digits is not rounded when it is narrowed. -/
theorem ReadsDouble.narrow_div_two {n : Nat} (read : ReadsDouble x (n / 2)) (short : n < 2 ^ 24) :
    Reads (Binary.narrow x) (n / 2) := by
  have narrowed := reads_div_two_pow (j := 1) (by rw [pow_one]) short (by norm_num) read.narrow
  rwa [pow_one] at narrowed

end Raster.Binary
