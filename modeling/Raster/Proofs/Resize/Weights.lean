import Raster.Proofs.Resize.Lengths

/-!
The weights of a cell as doubles and singles form them.  Main statement:
`Resolved.exists_totals_cell`, where a target axis has fewer than a thousand samples they add up to
nearly one.
-/

namespace Raster.Area.Share

open Binary
open Scalar (smaller thousandth)

variable {sourceSize targetSize d : Nat}

/-- The weight of a counted length: a double quotient by the covered length, as a single. -/
def weight32 (length covered : ℚ) : ℚ := nearest32 (nearest64 (length / covered))

section Weighing

variable {length covered unit : ℚ} (low : 0 ≤ length) (high : length ≤ 1 + 1 / 2 ^ 29)
variable (near : |covered - unit| ≤ 1 / 2 ^ 30) (least : 1 ≤ unit)

include low high near least

/-- The quotient that a weight is rounded from is very near the exact one. -/
theorem quotient_near : 0 ≤ length / covered ∧ |length / covered - length / unit| ≤ 1 / 2 ^ 29 := by
  obtain ⟨below, above⟩ := abs_le.mp near
  have positive : 1 / 2 < covered := by linarith
  have nonneg : 0 ≤ length / covered := div_nonneg low (by linarith)
  have most : length / covered ≤ 2 := by
    rw [div_le_iff₀ (by linarith)]
    linarith
  -- The two quotients differ by the part of the unit that the covered length misses.
  have difference :
      length / covered - length / unit = length / covered * ((unit - covered) / unit) := by
    have first : covered ≠ 0 := by linarith
    have second : unit ≠ 0 := by linarith
    field_simp
  have part : |(unit - covered) / unit| ≤ 1 / 2 ^ 30 := by
    rw [abs_div, abs_of_pos (by linarith : 0 < unit), abs_sub_comm]
    exact (div_le_self (abs_nonneg _) least).trans near
  refine ⟨nonneg, ?_⟩
  rw [difference, abs_mul, abs_of_nonneg nonneg]
  calc length / covered * |(unit - covered) / unit| ≤ 2 * (1 / 2 ^ 30) :=
        mul_le_mul most part (abs_nonneg _) (by norm_num)
    _ = 1 / 2 ^ 29 := by norm_num

/-- The quotient is below two as a double, and still very near the exact one. -/
theorem quotient64_bounds : 0 ≤ nearest64 (length / covered) ∧
    nearest64 (length / covered) < 2 ∧
    |nearest64 (length / covered) - length / unit| ≤ 1 / 2 ^ 28 := by
  -- One more rounding, to a double, adds next to nothing.
  obtain ⟨nonneg, exact_near⟩ := quotient_near low high near least
  have share : length / unit ≤ length := div_le_self low least
  obtain ⟨below, above⟩ := abs_le.mp exact_near
  obtain ⟨roundedLow, roundedHigh⟩ := abs_le.mp (abs_nearest64_sub_le nonneg (by linarith))
  refine ⟨nearest_nonneg nonneg, by linarith, ?_⟩
  rw [abs_le]
  constructor <;> linarith

/-- A weight is near the exact share of its length. -/
theorem weight32_bounds : 0 ≤ weight32 length covered ∧
    |weight32 length covered - length / unit| ≤ 1 / 2 ^ 22 := by
  obtain ⟨nonneg, small, exact_near⟩ := quotient64_bounds low high near least
  -- The quotient stays below two, so its last place as a single is the 23rd after the point.
  have moved := nearest32_near (k := 1) nonneg (by simpa using small) (by norm_num)
  rw [← weight32] at moved
  obtain ⟨below, above⟩ := abs_le.mp exact_near
  refine ⟨nearest_nonneg nonneg, ?_⟩
  rw [abs_le] at moved ⊢
  norm_num at moved
  constructor <;> linarith

/-- A weight is computed as it is defined. -/
theorem reads_weight32 {x y : Float} (first : ReadsDouble x length)
    (second : ReadsDouble y covered) : Reads (narrow (x / y)) (weight32 length covered) := by
  obtain ⟨nonneg, exact_near⟩ := quotient_near low high near least
  obtain ⟨rounded, small, -⟩ := quotient64_bounds low high near least
  have share : length / unit ≤ length := div_le_self low least
  have quotient := abs_le.mp exact_near
  have positive := abs_le.mp near
  -- Neither the double nor the single comes near the limit of its format.
  refine (first.div second (by linarith) (moderate_of_le nonneg (by linarith))).narrow ?_
  have within : |nearest64 (length / covered)| ≤ 2 ^ (1 : ℤ) := by
    rw [abs_of_nonneg rounded, zpow_one]
    exact small.le
  exact (abs_nearest_le (by decide) within).trans_lt (by norm_num)

end Weighing

/-- The weights of the shares are numbers that are not negative and add up to the total. -/
inductive Totals : List (Share Float32) → ℚ → Prop
  | nil : Totals [] 0
  | cons {share : Share Float32} {rest : List (Share Float32)} {weight total : ℚ}
      (read : Reads share.weight weight) (nonneg : 0 ≤ weight) (others : Totals rest total) :
      Totals (share :: rest) (weight + total)

/-- A total of weights is not negative. -/
theorem Totals.nonneg {shares : List (Share Float32)} {total : ℚ} (totals : Totals shares total) :
    0 ≤ total := by
  -- No weight is negative.
  induction totals with
  | nil => exact le_rfl
  | cons _ nonneg _ ih => exact add_nonneg nonneg ih

/-- The totals of two lists of shares add up. -/
theorem Totals.append {first second : List (Share Float32)} {p q : ℚ} (left : Totals first p)
    (right : Totals second q) : Totals (first ++ second) (p + q) := by
  -- The first list is taken off one share at a time.
  induction left with
  | nil => rwa [zero_add]
  | cons read nonneg others ih =>
    rw [add_assoc]
    exact .cons read nonneg ih

/-- A share that is listed when it is counted adds its weight when it is. -/
theorem totals_if {counted : Prop} [Decidable counted] {sample : Nat} {x : Float32} {w : ℚ}
    (read : counted → Reads x w) (nonneg : 0 ≤ w) :
    Totals (if counted then [⟨d, sample, x⟩] else []) (if counted then w else 0) := by
  -- What is not counted is not listed.
  split_ifs with yes
  · have one : Totals [⟨d, sample, x⟩] (w + 0) := .cons (read yes) nonneg .nil
    rwa [add_zero] at one
  · exact .nil

/-- Shares of one weight add up to its multiple. -/
theorem totals_map {x : Float32} {w : ℚ} (read : Reads x w) (nonneg : 0 ≤ w) (samples : List Nat) :
    Totals (samples.map fun sample => ⟨d, sample, x⟩) (samples.length * w) := by
  induction samples with
  | nil => simpa using Totals.nil
  | cons sample rest ih =>
    -- One more entry adds one more weight.
    rw [List.length_cons, Nat.cast_succ, add_mul, one_mul, add_comm]
    exact .cons read nonneg ih

/-- What is counted or not is as near its share when it is counted. -/
theorem share_near (counted : Prop) [Decidable counted] {weight length unit : ℚ}
    (near : |weight - length / unit| ≤ 1 / 2 ^ 22) :
    |(if counted then weight else 0) - (if counted then length else 0) / unit| ≤ 1 / 2 ^ 22 := by
  -- What is not counted has no share.
  split_ifs
  · exact near
  · norm_num

/-- The scale of an axis, as it is computed. -/
def scaleDouble (sourceSize targetSize : Nat) : Float := double sourceSize / double targetSize

/-- Where a footprint starts, as it is computed. -/
def startDouble (sourceSize targetSize d : Nat) : Float :=
  double d * scaleDouble sourceSize targetSize

/-- Where a footprint stops, as it is computed. -/
def stopDouble (sourceSize targetSize d : Nat) : Float :=
  startDouble sourceSize targetSize d + scaleDouble sourceSize targetSize

/-- The length of a footprint that its axis covers, as it is computed. -/
def coveredDouble (sourceSize targetSize d : Nat) : Float :=
  smaller (scaleDouble sourceSize targetSize)
    (double sourceSize - startDouble sourceSize targetSize d)

/-- The length of a footprint before its first whole sample, as it is computed. -/
def beforeDouble (sourceSize targetSize d : Nat) : Float :=
  double (first64 sourceSize targetSize d) - startDouble sourceSize targetSize d

/-- The length of a footprint in the sample that it ends in, as it is computed. -/
def afterDouble (sourceSize targetSize d : Nat) : Float :=
  stopDouble sourceSize targetSize d - double (last64 sourceSize targetSize d)

/-- A thousandth is read as the double nearest to it. -/
theorem reads_thousandth : ReadsDouble thousandth thousandth64 := by
  -- The threshold is one divided by a thousand, rounded once.
  have read := (readsDouble_double (n := 1) (by norm_num)).div
    (readsDouble_double (n := 1000) (by norm_num)) (by norm_num)
    (moderate_of_le (by norm_num) (by norm_num))
  exact_mod_cast read

section Cells

variable (axis : Resolved sourceSize targetSize) (inside : d < targetSize)

include axis

/-- Every number of samples on a resolved axis is a double. -/
theorem Resolved.reads_double {n : Nat} (within : n ≤ sourceSize) : ReadsDouble (double n) n := by
  -- A resolved axis is shorter than `2 ^ 21`.
  have size := axis.size_lt
  exact readsDouble_double (by omega)

include inside

/-- The scale is read as its rounded value. -/
theorem Resolved.reads_scale :
    ReadsDouble (scaleDouble sourceSize targetSize) (scale64 sourceSize targetSize) := by
  -- Both sizes are doubles, and the target has samples.
  obtain ⟨least, most⟩ := axis.scale_bounds inside
  have positive : (targetSize : ℚ) ≠ 0 := by exact_mod_cast (Nat.zero_lt_of_lt inside).ne'
  exact (axis.reads_double le_rfl).div (axis.reads_double axis.shrinks) positive
    (moderate_of_le (q := scale sourceSize targetSize) (by linarith) (by linarith))

/-- The start of a footprint is read as its rounded value. -/
theorem Resolved.reads_start :
    ReadsDouble (startDouble sourceSize targetSize d) (start64 sourceSize targetSize d) := by
  -- The product stays on the axis.
  obtain ⟨low, high, -⟩ := axis.mul_scale64_bounds inside
  have size : (sourceSize : ℚ) < 2 ^ 21 := by exact_mod_cast axis.size_lt
  exact (axis.reads_double (inside.le.trans axis.shrinks)).mul (axis.reads_scale inside)
    (moderate_of_le low (by linarith))

/-- The stop of a footprint is read as its rounded value. -/
theorem Resolved.reads_stop :
    ReadsDouble (stopDouble sourceSize targetSize d) (stop64 sourceSize targetSize d) := by
  -- The sum is hardly past the axis.
  obtain ⟨low, high, -⟩ := axis.start64_bounds inside
  obtain ⟨least, near⟩ := axis.scale64_bounds inside
  obtain ⟨-, most⟩ := axis.scale_bounds inside
  have size : (sourceSize : ℚ) < 2 ^ 21 := by exact_mod_cast axis.size_lt
  have scaled := abs_le.mp near
  exact (axis.reads_start inside).add (axis.reads_scale inside)
    (moderate_of_le (by linarith) (by linarith))

/-- The covered length of a footprint is read as its rounded value. -/
theorem Resolved.reads_covered :
    ReadsDouble (coveredDouble sourceSize targetSize d) (covered64 sourceSize targetSize d) := by
  -- What is left of the axis is no longer than the axis.
  obtain ⟨low, high, -⟩ := axis.start64_bounds inside
  have size : (sourceSize : ℚ) < 2 ^ 21 := by exact_mod_cast axis.size_lt
  exact (axis.reads_scale inside).smaller ((axis.reads_double le_rfl).sub (axis.reads_start inside)
    (moderate_of_le (by linarith) (by linarith)))

/-- The length before the first whole sample is read as its rounded value. -/
theorem Resolved.reads_before :
    ReadsDouble (beforeDouble sourceSize targetSize d) (before64 sourceSize targetSize d) := by
  -- Both numbers lie on the axis, less than a sample apart.
  obtain ⟨low, high⟩ := axis.first64_bounds inside
  have index : first64 sourceSize targetSize d ≤ sourceSize :=
    (axis.ceil_start64_le inside).trans (Nat.sub_le _ _)
  exact (axis.reads_double index).sub (axis.reads_start inside)
    (moderate_of_le low (by linarith))

/-- The length in the last sample is read as its rounded value. -/
theorem Resolved.reads_after :
    ReadsDouble (afterDouble sourceSize targetSize d) (after64 sourceSize targetSize d) := by
  -- Both numbers lie on the axis, hardly more than a sample apart.
  obtain ⟨low, high⟩ := axis.last64_bounds inside
  have index : last64 sourceSize targetSize d ≤ sourceSize :=
    (min_le_right _ _).trans (Nat.sub_le _ _)
  exact (axis.reads_stop inside).sub (axis.reads_double index)
    (moderate_of_le low (by linarith))

/-- The sample that a cell ends in is computed from the rounded stop. -/
theorem Resolved.stopSample_eq :
    min (toIndex (wholeDouble .down (stopDouble sourceSize targetSize d))) (sourceSize - 1) =
      last64 sourceSize targetSize d := by
  obtain ⟨low, near⟩ := axis.stop64_bounds inside
  have nonneg : 0 ≤ stop64 sourceSize targetSize d := (Nat.cast_nonneg _).trans low
  have ends := start_succ_le sourceSize inside
  have size : (sourceSize : ℚ) < 2 ^ 21 := by exact_mod_cast axis.size_lt
  -- The stop is hardly past the axis, so its floor is far from the limit of indices.
  have short : ⌊stop64 sourceSize targetSize d⌋₊ < 2 ^ 53 := by
    have high := (abs_le.mp near).2
    rw [Nat.floor_lt nonneg]
    push_cast
    linarith
  rw [(axis.reads_stop inside).toIndex_wholeDouble .down nonneg
    (Int.natCast_floor_eq_floor nonneg).symm short]
  rfl

/-- The first sample of a cell is computed from the rounded start. -/
theorem Resolved.startSample_eq :
    min (toIndex (wholeDouble .up (startDouble sourceSize targetSize d)))
      (last64 sourceSize targetSize d) = first64 sourceSize targetSize d := by
  -- The ceiling of the start is a sample of the axis and not after the last one of the cell.
  obtain ⟨nonneg, -, -⟩ := axis.start64_bounds inside
  have size := axis.size_lt
  have index := axis.ceil_start64_le inside
  rw [(axis.reads_start inside).toIndex_wholeDouble .up nonneg
    (Int.natCast_ceil_eq_ceil nonneg).symm (by omega)]
  exact min_eq_left (axis.first64_le_last64 inside)

/-- A cell of a resolved axis lists what it counts by the rounded lengths. -/
theorem Resolved.cell_eq : cell Float sourceSize targetSize d =
    (if thousandth64 < before64 sourceSize targetSize d then
      [⟨d, first64 sourceSize targetSize d - 1,
        narrow (beforeDouble sourceSize targetSize d / coveredDouble sourceSize targetSize d)⟩]
      else []) ++
    ((List.range' (first64 sourceSize targetSize d)
      (last64 sourceSize targetSize d - first64 sourceSize targetSize d)).map fun sample =>
        ⟨d, sample, narrow (double 1 / coveredDouble sourceSize targetSize d)⟩) ++
    (if thousandth64 < after64 sourceSize targetSize d then
      [⟨d, last64 sourceSize targetSize d,
        narrow (smaller (smaller (afterDouble sourceSize targetSize d) (double 1))
          (coveredDouble sourceSize targetSize d) / coveredDouble sourceSize targetSize d)⟩]
      else []) := by
  -- Comparing doubles is comparing what they are read as.
  have early := decide_eq_true_iff.trans (reads_thousandth.lt_iff (axis.reads_before inside))
  have late := decide_eq_true_iff.trans (reads_thousandth.lt_iff (axis.reads_after inside))
  simp only [← early, ← late]
  simp only [beforeDouble, afterDouble]
  simp only [← axis.startSample_eq inside, ← axis.stopSample_eq inside]
  rfl

/-- What is counted of a footprint is not negative on either side. -/
theorem Resolved.lengths_nonneg : 0 ≤ before64 sourceSize targetSize d ∧
    0 ≤ min (min (after64 sourceSize targetSize d) 1) (covered64 sourceSize targetSize d) ∧
    0 ≤ head64 sourceSize targetSize d ∧ 0 ≤ tail64 sourceSize targetSize d := by
  -- Rounding keeps differences that are not negative so, and a covered length is nearly a sample.
  obtain ⟨least, -⟩ := axis.scale_bounds inside
  have covered := abs_le.mp (axis.covered64_bounds inside)
  have before : 0 ≤ before64 sourceSize targetSize d :=
    nearest_nonneg (axis.first64_bounds inside).1
  have after : 0 ≤ after64 sourceSize targetSize d := nearest_nonneg (axis.last64_bounds inside).1
  have limited : 0 ≤ min (min (after64 sourceSize targetSize d) 1)
      (covered64 sourceSize targetSize d) :=
    le_min (le_min after zero_le_one) (by linarith)
  refine ⟨before, limited, ?_, ?_⟩
  · unfold head64
    split_ifs <;> linarith
  · unfold tail64
    split_ifs <;> linarith

/-- A cell has at most 2048 whole samples. -/
theorem Resolved.count_le :
    last64 sourceSize targetSize d - first64 sourceSize targetSize d ≤ 2048 := by
  -- The whole samples are no longer than what is counted, and that is nearly the footprint.
  obtain ⟨-, -, head, tail⟩ := axis.lengths_nonneg inside
  obtain ⟨-, most⟩ := axis.scale_bounds inside
  have near := abs_le.mp (axis.lengths_near inside)
  have below : ((last64 sourceSize targetSize d - first64 sourceSize targetSize d : Nat) : ℚ) <
      2049 := by
    linarith
  exact Nat.le_of_lt_succ (by exact_mod_cast below)

/-- The lengths on either side of the whole samples are at most a sample. -/
theorem Resolved.lengths_le : before64 sourceSize targetSize d ≤ 1 + 1 / 2 ^ 29 ∧
    min (min (after64 sourceSize targetSize d) 1) (covered64 sourceSize targetSize d) ≤
      1 + 1 / 2 ^ 29 := by
  obtain ⟨low, high⟩ := axis.first64_bounds inside
  -- Rounding moves the overlap before the first whole sample by little.
  have rounded := abs_le.mp (abs_nearest64_sub_le low (by linarith))
  rw [← before64] at rounded
  refine ⟨by linarith, ?_⟩
  exact (min_le_left _ _).trans ((min_le_right _ _).trans (by norm_num))

/-- The weights of a cell of a resolved axis are numbers that add up to nearly one. -/
theorem Resolved.exists_totals_cell : ∃ total, Totals (cell Float sourceSize targetSize d) total ∧
    |total - 1| ≤ 1 / 2000 ∧ (cell Float sourceSize targetSize d).length ≤ 2050 := by
  obtain ⟨least, -⟩ := axis.scale_bounds inside
  obtain ⟨headLow, tailLow, -, -⟩ := axis.lengths_nonneg inside
  obtain ⟨headHigh, tailHigh⟩ := axis.lengths_le inside
  have near := axis.covered64_bounds inside
  have few := axis.count_le inside
  have cover := axis.reads_covered inside
  have one : ReadsDouble (double 1) 1 := by
    exact_mod_cast readsDouble_double (n := 1) (by norm_num)
  -- Each kind of share has its weight, and each weight is near its share of the footprint.
  obtain ⟨headNonneg, headNear⟩ := weight32_bounds headLow headHigh near least
  obtain ⟨bodyNonneg, bodyNear⟩ := weight32_bounds zero_le_one (by norm_num) near least
  obtain ⟨tailNonneg, tailNear⟩ := weight32_bounds tailLow tailHigh near least
  have headRead := reads_weight32 headLow headHigh near least (axis.reads_before inside) cover
  have bodyRead := reads_weight32 zero_le_one (by norm_num) near least one cover
  have tailRead := reads_weight32 tailLow tailHigh near least
    (((axis.reads_after inside).smaller one).smaller cover) cover
  rw [axis.cell_eq inside]
  refine ⟨_, ((totals_if (fun _ => headRead) headNonneg).append
    (totals_map bodyRead bodyNonneg _)).append (totals_if (fun _ => tailRead) tailNonneg), ?_, ?_⟩
  · have headShare := share_near (thousandth64 < before64 sourceSize targetSize d) headNear
    have tailShare := share_near (thousandth64 < after64 sourceSize targetSize d) tailNear
    rw [← head64] at headShare
    rw [← tail64] at tailShare
    have lengths : |(head64 sourceSize targetSize d +
        (last64 sourceSize targetSize d - first64 sourceSize targetSize d : Nat) +
        tail64 sourceSize targetSize d) / scale sourceSize targetSize - 1| ≤ 1 / 2 ^ 27 := by
      have positive : 0 < scale sourceSize targetSize := by linarith
      rw [div_sub_one positive.ne', abs_div, abs_of_pos positive]
      exact (div_le_self (abs_nonneg _) least).trans (axis.lengths_near inside)
    rw [List.length_range']
    generalize last64 sourceSize targetSize d - first64 sourceSize targetSize d = n at few lengths ⊢
    have count : (n : ℚ) ≤ 2048 := by exact_mod_cast few
    have bodyShare : |n * weight32 1 (covered64 sourceSize targetSize d) -
        n / scale sourceSize targetSize| ≤ 2048 * (1 / 2 ^ 22) := by
      rw [← mul_one_div (n : ℚ), ← mul_sub, abs_mul, Nat.abs_cast]
      exact mul_le_mul count bodyNear (abs_nonneg _) (by norm_num)
    -- Every weight is off by little, and there are few enough of them.
    rw [add_div, add_div] at lengths
    rw [abs_le] at headShare tailShare bodyShare lengths ⊢
    constructor <;> linarith
  · simp only [List.length_append, List.length_map, List.length_range']
    split_ifs <;> simp only [List.length_singleton, List.length_nil] <;> omega

end Cells

end Raster.Area.Share
