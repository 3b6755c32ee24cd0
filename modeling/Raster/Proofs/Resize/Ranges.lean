import Raster.Proofs.Binary.Fraction
import Raster.Proofs.Resize.Lengths
import Raster.Proofs.Resize.Overlaps
import Raster.Resize.Area.Growth
import Raster.Resize.Linear

/-!
How far the indices reach that doubles find on axes of at most `2 ^ 47` samples.  Main statements:
`Held.sample_le` and `Held.low_le`, they are hardly past the axis, and `Held.length_table_le`, a
table of shares has a few entries for each sample of either axis.
-/

namespace Raster

open Binary
open Area.Share (scale scale64 start64 stop64 cell table)
open Scalar (ofNat)

variable {sourceSize targetSize d : Nat}

/-- Truncating a double that is not positive gives no positive coordinate. -/
theorem toCoordinate_nonpos {x : Float} {q : ℚ} (read : ReadsDouble x q) (nonpos : q ≤ 0) :
    toCoordinate x ≤ 0 := by
  -- The magnitude is truncated and the sign put before it.
  have truncated : ∀ low high, x.toModel.unpack.toInt low high ≤ 0 := by
    intro low high
    unfold ReadsDouble at read
    generalize x.toModel.unpack = u at read
    cases read with
    | zero sign => exact le_rfl
    | finite sign positive target =>
      rename_i m e
      cases sign with
      | positive =>
        have above := magnitude_pos positive e
        rw [signed] at nonpos
        linarith
      | negative => exact Int.neg_nonpos_of_nonneg (Int.natCast_nonneg _)
  show (Int64.ofIntClamp (x.toModel.unpack.toInt _ _)).toInt ≤ 0
  have cut := truncated Int64.minValue.toInt Int64.maxValue.toInt
  -- A number below the least coordinate becomes that one, which is negative.
  unfold Int64.ofIntClamp
  split_ifs with low high
  · rwa [Int64.toInt_ofIntLE]
  · exact absurd (cut.trans (by decide)) high
  · decide

/-- A pair of axes that buffers of at most `2 ^ 47` samples hold. -/
structure Held (sourceSize targetSize : Nat) : Prop where
  source_le : sourceSize ≤ 2 ^ 47
  target_le : targetSize ≤ 2 ^ 47

namespace Held

variable (held : Held sourceSize targetSize) (inside : d < targetSize)

include held inside

/-- Rounding the scale of such axes to a double moves it by less than a sample. -/
theorem scale64_bounds : 0 ≤ scale sourceSize targetSize ∧ scale sourceSize targetSize ≤ 2 ^ 47 ∧
    0 ≤ scale64 sourceSize targetSize ∧
    scale64 sourceSize targetSize ≤ scale sourceSize targetSize + 1 := by
  have samples : (sourceSize : ℚ) ≤ 2 ^ 47 := by exact_mod_cast held.source_le
  have destinations : (1 : ℚ) ≤ targetSize := by exact_mod_cast Nat.zero_lt_of_lt inside
  have low : 0 ≤ scale sourceSize targetSize := by
    unfold scale
    positivity
  have high : scale sourceSize targetSize ≤ 2 ^ 47 :=
    (div_le_self (Nat.cast_nonneg _) destinations).trans samples
  -- The last of 53 digits is then well below the unit.
  have moved := nearest64_near (k := 48) low (high.trans_lt (by norm_num)) (by norm_num)
  have near := (abs_le.mp moved).2
  norm_num at near
  exact ⟨low, high, nearest_nonneg low, by rw [scale64]; linarith⟩

/-- A position on the target axis is scaled to one that is hardly past the source axis. -/
theorem mul_scale64_le {q : ℚ} (low : 0 ≤ q) (high : q ≤ targetSize) :
    0 ≤ q * scale64 sourceSize targetSize ∧ q * scale64 sourceSize targetSize ≤ 2 ^ 48 := by
  obtain ⟨-, -, nonneg, near⟩ := held.scale64_bounds inside
  have samples : (sourceSize : ℚ) ≤ 2 ^ 47 := by exact_mod_cast held.source_le
  have destinations : (targetSize : ℚ) ≤ 2 ^ 47 := by exact_mod_cast held.target_le
  have positive : (targetSize : ℚ) ≠ 0 := by exact_mod_cast (Nat.zero_lt_of_lt inside).ne'
  refine ⟨mul_nonneg low nonneg, ?_⟩
  -- Rounding adds less than a sample for each destination.
  calc q * scale64 sourceSize targetSize
      ≤ targetSize * (scale sourceSize targetSize + 1) :=
        mul_le_mul high near nonneg (Nat.cast_nonneg _)
    _ = sourceSize + targetSize := by
        rw [scale, mul_add, mul_div_cancel₀ _ positive, mul_one]
    _ ≤ 2 ^ 48 := by linarith

/-- The scale is read as its rounded value. -/
theorem reads_scale :
    ReadsDouble (double sourceSize / double targetSize) (scale64 sourceSize targetSize) := by
  obtain ⟨low, high, -, -⟩ := held.scale64_bounds inside
  have samples := held.source_le
  have destinations := held.target_le
  have positive : (targetSize : ℚ) ≠ 0 := by exact_mod_cast (Nat.zero_lt_of_lt inside).ne'
  -- Both sizes are doubles, and the target has samples.
  exact (readsDouble_double (by omega)).div (readsDouble_double (by omega)) positive
    (moderate_of_le (q := scale sourceSize targetSize) low (by linarith))

/-- A scaled position is rounded once more and stays hardly past the source axis. -/
theorem reads_scaled {x : Float} {q : ℚ} (read : ReadsDouble x q) (low : 0 ≤ q)
    (high : q ≤ targetSize) :
    ReadsDouble (x * (double sourceSize / double targetSize))
        (nearest64 (q * scale64 sourceSize targetSize)) ∧
      0 ≤ nearest64 (q * scale64 sourceSize targetSize) ∧
      nearest64 (q * scale64 sourceSize targetSize) ≤ 2 ^ 48 := by
  obtain ⟨nonneg, most⟩ := held.mul_scale64_le inside low high
  refine ⟨read.mul (held.reads_scale inside) (moderate_of_le nonneg (by linarith)),
    nearest_nonneg nonneg, ?_⟩
  -- The bound is a double, so rounding does not pass it.
  exact_mod_cast nearest64_le_natCast (n := 2 ^ 48) (by norm_num) (by exact_mod_cast most)

/-- The start of a destination's footprint is read as its rounded value. -/
theorem reads_start :
    ReadsDouble (double d * (double sourceSize / double targetSize))
        (start64 sourceSize targetSize d) ∧
      0 ≤ start64 sourceSize targetSize d ∧ start64 sourceSize targetSize d ≤ 2 ^ 48 := by
  have index := inside.le.trans held.target_le
  -- A destination lies on the target axis.
  exact held.reads_scaled inside (readsDouble_double (by omega)) (Nat.cast_nonneg d)
    (by exact_mod_cast inside.le)

/-- The sample in which a destination's footprint starts is hardly past the source axis. -/
theorem sample_le :
    toIndex (wholeDouble .down (double d * (double sourceSize / double targetSize))) ≤ 2 ^ 48 := by
  obtain ⟨read, low, high⟩ := held.reads_start inside
  have index : ⌊start64 sourceSize targetSize d⌋₊ ≤ 2 ^ 48 :=
    Nat.floor_le_of_le (by exact_mod_cast high)
  -- The floor has few digits, so it is the index.
  rwa [read.toIndex_wholeDouble .down low (Int.natCast_floor_eq_floor low).symm (by omega)]

/-- The first sample under a destination's centre is hardly past the source axis. -/
theorem low_le :
    toCoordinate (wholeDouble .down (Linear.position Float sourceSize targetSize d)) ≤ 2 ^ 48 := by
  have index := inside.le.trans held.target_le
  have shifted := readsDouble_div_two (n := 2 * d + 1) (by push_cast; ring) (by omega)
    ((readsDouble_double (n := d) (by omega)).add readsDouble_half)
  have within : ((2 * d + 1 : Nat) : ℚ) / 2 ≤ targetSize := by
    rw [div_le_iff₀ two_pos]
    exact_mod_cast (by omega : 2 * d + 1 ≤ targetSize * 2)
  obtain ⟨scaled, low, high⟩ := held.reads_scaled inside shifted (by positivity) within
  generalize nearest64 ((2 * d + 1 : Nat) / 2 * scale64 sourceSize targetSize) = p
    at scaled low high
  have small : |p - (1 : Nat) / 2| ≤ 2 ^ 64 := by
    rw [abs_le, Nat.cast_one]
    constructor <;> linarith
  have centre := scaled.sub readsDouble_half
    (small.trans (pow_le_pow_right₀ (by norm_num) (by norm_num)))
  -- Half a sample is taken away, so the centre may lie before the first sample.
  have most : nearest64 (p - (1 : Nat) / 2) ≤ 2 ^ 48 := by
    exact_mod_cast nearest64_le_natCast (n := 2 ^ 48) (by norm_num) (by push_cast; linarith)
  have base : ReadsDouble (wholeDouble .down (Linear.position Float sourceSize targetSize d))
      ⌊nearest64 (p - (1 : Nat) / 2)⌋ :=
    denotes_unpack_floor (by decide) (by decide) (by decide) centre
  rcases le_total 0 ⌊nearest64 (p - (1 : Nat) / 2)⌋ with nonneg | nonpos
  · obtain ⟨n, whole⟩ := Int.eq_ofNat_of_zero_le nonneg
    have bound : (n : ℤ) ≤ 2 ^ 48 := whole ▸ Int.floor_le_iff.mpr (by push_cast; linarith)
    rw [whole, Int.cast_natCast] at base
    rw [base.toCoordinate (by omega)]
    exact bound
  · exact (toCoordinate_nonpos base (by exact_mod_cast nonpos)).trans (by norm_num)

/-- The stop of a destination's footprint is read as its rounded value, which is hardly a footprint
past its start. -/
theorem reads_stop :
    ReadsDouble (double d * (double sourceSize / double targetSize) +
        double sourceSize / double targetSize) (stop64 sourceSize targetSize d) ∧
      0 ≤ stop64 sourceSize targetSize d ∧ stop64 sourceSize targetSize d < 2 ^ 51 ∧
      stop64 sourceSize targetSize d ≤
        start64 sourceSize targetSize d + scale sourceSize targetSize + 2 := by
  obtain ⟨read, low, high⟩ := held.reads_start inside
  obtain ⟨-, most, nonneg, near⟩ := held.scale64_bounds inside
  have sum : 0 ≤ start64 sourceSize targetSize d + scale64 sourceSize targetSize := by linarith
  -- The sum has at most 50 digits before the point, so rounding moves it by less than a sample.
  have moved := nearest64_near (k := 50) sum (by norm_num; linarith) (by norm_num)
  have rounded := (abs_le.mp moved).2
  norm_num at rounded
  refine ⟨read.add (held.reads_scale inside) (moderate_of_le sum (by linarith)),
    nearest_nonneg sum, ?_, ?_⟩ <;> rw [stop64] <;> linarith

/-- A cell has a few entries more than its footprint has samples. -/
theorem length_cell_le :
    ((cell Float sourceSize targetSize d).length : ℚ) ≤ scale sourceSize targetSize + 4 := by
  obtain ⟨starts, low, high⟩ := held.reads_start inside
  obtain ⟨stops, nonneg, most, near⟩ := held.reads_stop inside
  obtain ⟨positive, -, -, -⟩ := held.scale64_bounds inside
  have first : Wide.toIndex (Wide.ceil (ofNat d * (ofNat sourceSize / ofNat targetSize) : Float)) =
      ⌈start64 sourceSize targetSize d⌉₊ :=
    starts.toIndex_wholeDouble .up low (Int.natCast_ceil_eq_ceil low).symm
      ((Nat.ceil_le.mpr (by exact_mod_cast high)).trans_lt (by norm_num : 2 ^ 48 < 2 ^ 53))
  have last : Wide.toIndex (Scalar.floor (ofNat d * (ofNat sourceSize / ofNat targetSize) +
      ofNat sourceSize / ofNat targetSize : Float)) = ⌊stop64 sourceSize targetSize d⌋₊ :=
    stops.toIndex_wholeDouble .down nonneg (Int.natCast_floor_eq_floor nonneg).symm
      ((Nat.floor_lt nonneg).mpr (by push_cast; linarith))
  -- Besides the whole samples there are at most the one before them and the one after.
  have count : (cell Float sourceSize targetSize d).length ≤
      ⌊stop64 sourceSize targetSize d⌋₊ - ⌈start64 sourceSize targetSize d⌉₊ + 2 := by
    simp only [cell, List.length_append, List.length_map, List.length_range', first, last]
    split <;> split <;> simp only [List.length_cons, List.length_nil] <;> omega
  have whole : ((⌊stop64 sourceSize targetSize d⌋₊ - ⌈start64 sourceSize targetSize d⌉₊ : Nat) :
      ℚ) ≤ scale sourceSize targetSize + 2 := by
    rcases Nat.le_total ⌈start64 sourceSize targetSize d⌉₊ ⌊stop64 sourceSize targetSize d⌋₊ with
      order | order
    · rw [Nat.cast_sub order]
      linarith [Nat.floor_le nonneg, Nat.le_ceil (start64 sourceSize targetSize d)]
    · rw [Nat.sub_eq_zero_of_le order, Nat.cast_zero]
      linarith
  have total : ((cell Float sourceSize targetSize d).length : ℚ) ≤
      (⌊stop64 sourceSize targetSize d⌋₊ - ⌈start64 sourceSize targetSize d⌉₊ : Nat) + 2 := by
    exact_mod_cast count
  linarith

omit inside in
/-- A table has a few entries for each sample of either axis. -/
theorem length_table_le (positive : 0 < targetSize) :
    (table Float sourceSize targetSize).length ≤ sourceSize + 4 * targetSize := by
  have destinations : (targetSize : ℚ) ≠ 0 := by exact_mod_cast positive.ne'
  -- The footprints of all destinations make up the source axis.
  have each : ∀ count ∈ (List.range targetSize).map fun d =>
      ((cell Float sourceSize targetSize d).length : ℚ),
      count ≤ scale sourceSize targetSize + 4 := by
    intro count member
    obtain ⟨d, listed, rfl⟩ := List.mem_map.mp member
    exact held.length_cell_le (List.mem_range.mp listed)
  have sum := List.sum_le_card_nsmul _ _ each
  rw [List.length_map, List.length_range, nsmul_eq_mul, scale, mul_add,
    mul_div_cancel₀ _ destinations] at sum
  have joined : ((table Float sourceSize targetSize).length : ℚ) ≤ sourceSize + 4 * targetSize := by
    rw [table, List.length_flatMap, Nat.cast_list_sum, List.map_map, mul_comm 4]
    exact sum
  exact_mod_cast joined

end Held

end Raster
