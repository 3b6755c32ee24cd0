import Raster.Proofs.Binary.Double
import Raster.Proofs.Resize.Coverage

/-!
The lengths that a cell is made of, as doubles form them.  Main statement: `Resolved.lengths_near`,
where a target axis has fewer than a thousand samples they add up to nearly a footprint.
-/

namespace Raster.Area.Share

open Binary

variable {sourceSize targetSize d : Nat}

/-- An axis whose footprints overlap samples by more than a thousandth or not at all, and of which
none is longer than 2048 samples. -/
structure Resolved (sourceSize targetSize : Nat) : Prop where
  -- An axis that grows takes another path.
  shrinks : targetSize ≤ sourceSize
  -- Below this no true overlap is smaller than the threshold.
  few : targetSize < 1000
  short : sourceSize ≤ 2048 * targetSize

/-- Rounding to 53 digits moves numbers of at most 22 binary digits very little. -/
theorem abs_nearest64_sub_le {x : ℚ} (low : 0 ≤ x) (high : x < 2 ^ 22) :
    |nearest64 x - x| ≤ 1 / 2 ^ 32 := by
  -- The last of 53 digits is then the 31st place after the point.
  have moved := nearest64_near (k := 22) low (by exact_mod_cast high) (by norm_num)
  norm_num at moved ⊢
  exact moved

/-- The scale of an axis, rounded to a double. -/
def scale64 (sourceSize targetSize : Nat) : ℚ := nearest64 (scale sourceSize targetSize)

/-- Where a footprint starts, in doubles. -/
def start64 (sourceSize targetSize d : Nat) : ℚ := nearest64 (d * scale64 sourceSize targetSize)

/-- Where a footprint stops, in doubles. -/
def stop64 (sourceSize targetSize d : Nat) : ℚ :=
  nearest64 (start64 sourceSize targetSize d + scale64 sourceSize targetSize)

/-- The length of a footprint that its axis covers, in doubles. -/
def covered64 (sourceSize targetSize d : Nat) : ℚ :=
  min (scale64 sourceSize targetSize) (nearest64 (sourceSize - start64 sourceSize targetSize d))

/-- A resolved axis has at most 21 binary digits of samples. -/
theorem Resolved.size_lt (axis : Resolved sourceSize targetSize) : sourceSize < 2 ^ 21 := by
  have short := axis.short
  have few := axis.few
  -- Fewer than a thousand destinations of at most 2048 samples each.
  omega

section Positions

variable (axis : Resolved sourceSize targetSize) (inside : d < targetSize)

include axis inside

/-- Footprints of a resolved axis are at least one sample long and at most 2048. -/
theorem Resolved.scale_bounds :
    1 ≤ scale sourceSize targetSize ∧ scale sourceSize targetSize ≤ 2048 := by
  -- Both are bounds on the quotient of the two sizes.
  have positive : (0 : ℚ) < targetSize := by exact_mod_cast Nat.zero_lt_of_lt inside
  refine ⟨one_le_scale (Nat.zero_lt_of_lt inside) axis.shrinks, ?_⟩
  rw [scale, div_le_iff₀ positive]
  exact_mod_cast axis.short

/-- The rounded scale is no less than one and very near the scale. -/
theorem Resolved.scale64_bounds : 1 ≤ scale64 sourceSize targetSize ∧
    |scale64 sourceSize targetSize - scale sourceSize targetSize| ≤ 1 / 2 ^ 42 := by
  obtain ⟨least, most⟩ := axis.scale_bounds inside
  -- One is a double, and a scale of twelve digits has its last place far after the point.
  constructor
  · exact_mod_cast natCast_le_nearest64 (n := 1) (by norm_num) (by exact_mod_cast least)
  · have moved := nearest64_near (q := scale sourceSize targetSize) (k := 12) (by linarith)
      (most.trans_lt (by norm_num)) (by norm_num)
    rw [← scale64] at moved
    norm_num at moved ⊢
    exact moved

/-- Before it is rounded, the start of a footprint is at most the last sample of the axis. -/
theorem Resolved.mul_scale64_bounds : 0 ≤ d * scale64 sourceSize targetSize ∧
    d * scale64 sourceSize targetSize ≤ sourceSize - 1 ∧
    |d * scale64 sourceSize targetSize - start sourceSize targetSize d| ≤ 1 / 2 ^ 32 := by
  -- There are fewer than a thousand destinations to multiply the error of the scale.
  obtain ⟨low, near⟩ := axis.scale64_bounds inside
  obtain ⟨least, most⟩ := axis.scale_bounds inside
  have index : (d : ℚ) ≤ 1000 := by
    have := axis.few
    exact_mod_cast (by omega : d ≤ 1000)
  have nonneg : (0 : ℚ) ≤ d := Nat.cast_nonneg d
  have moved :
      |d * scale64 sourceSize targetSize - start sourceSize targetSize d| ≤ 1 / 2 ^ 32 := by
    rw [start, ← mul_sub, abs_mul, abs_of_nonneg nonneg]
    calc (d : ℚ) * |scale64 sourceSize targetSize - scale sourceSize targetSize| ≤
          1000 * (1 / 2 ^ 42) := mul_le_mul index near (abs_nonneg _) (by norm_num)
      _ ≤ 1 / 2 ^ 32 := by norm_num
  refine ⟨mul_nonneg nonneg (by linarith), ?_, moved⟩
  have last : (d : ℚ) ≤ targetSize - 1 := by
    have : (d : ℚ) + 1 ≤ targetSize := by exact_mod_cast inside
    linarith
  rcases axis.shrinks.eq_or_lt with same | less
  -- An axis that keeps its size has a scale of exactly one.
  · have positive : (0 : ℚ) < targetSize := by exact_mod_cast Nat.zero_lt_of_lt inside
    have unit : scale64 sourceSize targetSize = 1 := by
      have one : nearest64 (1 : Nat) = (1 : Nat) := nearest64_natCast (by norm_num)
      rw [Nat.cast_one] at one
      rw [scale64, scale, ← same, div_self positive.ne', one]
    rw [unit, mul_one, ← same]
    exact last
  -- A scale above one exceeds it by more than a thousandth.
  · have positive : (0 : ℚ) < targetSize := by exact_mod_cast Nat.zero_lt_of_lt inside
    have few : (targetSize : ℚ) ≤ 999 := by exact_mod_cast Nat.le_of_lt_succ axis.few
    have more : (targetSize : ℚ) + 1 ≤ sourceSize := by exact_mod_cast less
    have excess : 1 + 1 / 999 ≤ scale sourceSize targetSize := by
      rw [scale, le_div_iff₀ positive]
      linarith
    have ends : start sourceSize targetSize (d + 1) ≤ sourceSize := start_succ_le sourceSize inside
    rw [start_succ] at ends
    have near := (abs_le.mp moved).2
    linarith

/-- Where a footprint starts in doubles: on the axis, and very near its start. -/
theorem Resolved.start64_bounds : 0 ≤ start64 sourceSize targetSize d ∧
    start64 sourceSize targetSize d ≤ sourceSize - 1 ∧
    |start64 sourceSize targetSize d - start sourceSize targetSize d| ≤ 1 / 2 ^ 31 := by
  obtain ⟨nonneg, last, near⟩ := axis.mul_scale64_bounds inside
  have size := axis.size_lt
  have few : (sourceSize : ℚ) < 2 ^ 21 := by exact_mod_cast size
  have samples : 1 ≤ sourceSize := (Nat.one_le_of_lt inside).trans axis.shrinks
  refine ⟨nearest_nonneg nonneg, ?_, ?_⟩
  -- The number of the last sample is a double, so rounding does not pass it.
  · have bound := nearest64_le_natCast (n := sourceSize - 1) (by omega)
      (q := d * scale64 sourceSize targetSize) (by rwa [Nat.cast_sub samples, Nat.cast_one])
    rwa [Nat.cast_sub samples, Nat.cast_one] at bound
  -- The errors of the scale and of the product add up.
  · have rounded := abs_nearest64_sub_le nonneg (by linarith)
    have total := abs_sub_le (start64 sourceSize targetSize d) (d * scale64 sourceSize targetSize)
      (start sourceSize targetSize d)
    rw [← start64] at rounded
    linarith

/-- The first whole sample of a footprint is a sample of the axis. -/
theorem Resolved.ceil_start64_le : ⌈start64 sourceSize targetSize d⌉₊ ≤ sourceSize - 1 := by
  -- The last sample bounds the start, and its number is whole.
  obtain ⟨-, last, -⟩ := axis.start64_bounds inside
  have samples : 1 ≤ sourceSize := (Nat.one_le_of_lt inside).trans axis.shrinks
  rwa [Nat.ceil_le, Nat.cast_sub samples, Nat.cast_one]

/-- Where a footprint stops in doubles: not before its first whole sample and near its stop. -/
theorem Resolved.stop64_bounds :
    (⌈start64 sourceSize targetSize d⌉₊ : ℚ) ≤ stop64 sourceSize targetSize d ∧
    |stop64 sourceSize targetSize d - start sourceSize targetSize (d + 1)| ≤ 1 / 2 ^ 30 := by
  obtain ⟨nonneg, last, near⟩ := axis.start64_bounds inside
  obtain ⟨low, scaled⟩ := axis.scale64_bounds inside
  obtain ⟨-, most⟩ := axis.scale_bounds inside
  have size := axis.size_lt
  have ends : start sourceSize targetSize (d + 1) ≤ sourceSize := start_succ_le sourceSize inside
  have few : (sourceSize : ℚ) < 2 ^ 21 := by exact_mod_cast size
  rw [start_succ] at ends ⊢
  obtain ⟨nearLow, nearHigh⟩ := abs_le.mp near
  obtain ⟨scaleLow, scaleHigh⟩ := abs_le.mp scaled
  have first := axis.ceil_start64_le inside
  constructor
  -- A whole sample further on is reached, because the scale is at least one.
  · refine natCast_le_nearest64 (by omega) ?_
    have next := Nat.ceil_lt_add_one nonneg
    linarith
  -- The errors of the start, the scale and the sum add up.
  · have rounded := abs_nearest64_sub_le
      (x := start64 sourceSize targetSize d + scale64 sourceSize targetSize) (by linarith)
      (by linarith)
    rw [← stop64] at rounded
    obtain ⟨roundLow, roundHigh⟩ := abs_le.mp rounded
    rw [abs_le]
    constructor <;> linarith

/-- The covered length of a footprint in doubles is very near its scale. -/
theorem Resolved.covered64_bounds :
    |covered64 sourceSize targetSize d - scale sourceSize targetSize| ≤ 1 / 2 ^ 30 := by
  -- The footprint lies on the axis, so both bounds of its covered length are its scale.
  obtain ⟨nonneg, last, near⟩ := axis.start64_bounds inside
  obtain ⟨low, scaled⟩ := axis.scale64_bounds inside
  have size := axis.size_lt
  have ends : start sourceSize targetSize (d + 1) ≤ sourceSize := start_succ_le sourceSize inside
  have few : (sourceSize : ℚ) < 2 ^ 21 := by exact_mod_cast size
  have least := axis.scale_bounds inside
  rw [start_succ] at ends
  obtain ⟨nearLow, nearHigh⟩ := abs_le.mp near
  obtain ⟨scaleLow, scaleHigh⟩ := abs_le.mp scaled
  have rounded := abs_nearest64_sub_le (x := sourceSize - start64 sourceSize targetSize d)
    (by linarith) (by linarith)
  obtain ⟨roundLow, roundHigh⟩ := abs_le.mp rounded
  rw [abs_le, covered64]
  -- What is left of the axis is no shorter than a footprint.
  constructor
  · rw [le_sub_iff_add_le, le_min_iff]
    constructor <;> linarith
  · have bound := min_le_left (scale64 sourceSize targetSize)
      (nearest64 (sourceSize - start64 sourceSize targetSize d))
    linarith

end Positions

/-- The first source sample of a cell, in doubles. -/
def first64 (sourceSize targetSize d : Nat) : Nat := ⌈start64 sourceSize targetSize d⌉₊

/-- The source sample that a cell ends in, in doubles. -/
def last64 (sourceSize targetSize d : Nat) : Nat :=
  min ⌊stop64 sourceSize targetSize d⌋₊ (sourceSize - 1)

/-- The length of a footprint before its first whole sample, in doubles. -/
def before64 (sourceSize targetSize d : Nat) : ℚ :=
  nearest64 (first64 sourceSize targetSize d - start64 sourceSize targetSize d)

/-- The length of a footprint in the sample that it ends in, in doubles. -/
def after64 (sourceSize targetSize d : Nat) : ℚ :=
  nearest64 (stop64 sourceSize targetSize d - last64 sourceSize targetSize d)

/-- One thousandth, in doubles. -/
def thousandth64 : ℚ := nearest64 (1 / 1000)

/-- What a cell counts before its first sample, in doubles. -/
def head64 (sourceSize targetSize d : Nat) : ℚ :=
  if thousandth64 < before64 sourceSize targetSize d then before64 sourceSize targetSize d else 0

/-- What a cell counts in its last sample, in doubles. -/
def tail64 (sourceSize targetSize d : Nat) : ℚ :=
  -- An overlap of at most a thousandth is dropped.
  if thousandth64 < after64 sourceSize targetSize d then
    min (min (after64 sourceSize targetSize d) 1) (covered64 sourceSize targetSize d)
  else 0

/-- The double nearest to a thousandth is very near it. -/
theorem thousandth64_near : |thousandth64 - 1 / 1000| ≤ 1 / 2 ^ 32 :=
  abs_nearest64_sub_le (by norm_num) (by norm_num)

/-- A length that is nearly a multiple of one part in fewer than a thousand is either counted or so
small that nothing is lost. -/
theorem counted_near {t : Nat} {j : ℤ} {x p : ℚ} (positive : 0 < t) (few : t < 1000)
    (multiple : |x - j / t| ≤ 1 / 2 ^ 30) (nonneg : 0 ≤ x) (rounded : |p - x| ≤ 1 / 2 ^ 32) :
    |(if thousandth64 < p then p else 0) - x| ≤ 1 / 2 ^ 30 := by
  -- A multiple that is not zero is at least one part in 999, which is more than a thousandth.
  have parts : (0 : ℚ) < t := by exact_mod_cast positive
  have most : (t : ℚ) ≤ 999 := by exact_mod_cast Nat.le_of_lt_succ few
  have limit := abs_le.mp thousandth64_near
  have near := abs_le.mp multiple
  have moved := abs_le.mp rounded
  split_ifs with counted
  · exact rounded.trans (by norm_num)
  -- What is not counted is no multiple but zero.
  · have small : (j : ℚ) / t < 1 / 999 := by linarith [not_lt.mp counted]
    have before : j ≤ 0 := by
      by_contra later
      have one : (1 : ℚ) ≤ j := by exact_mod_cast (not_le.mp later)
      have share : 1 / 999 ≤ (j : ℚ) / t := by
        rw [div_le_div_iff₀ (by norm_num) parts]
        nlinarith
      linarith
    have low : (j : ℚ) / t ≤ 0 :=
      div_nonpos_of_nonpos_of_nonneg (by exact_mod_cast before) parts.le
    rw [zero_sub, abs_neg, abs_of_nonneg nonneg]
    linarith

section Lengths

variable (axis : Resolved sourceSize targetSize) (inside : d < targetSize)

include axis inside

/-- The first whole sample starts less than a sample after the footprint does. -/
theorem Resolved.first64_bounds :
    0 ≤ first64 sourceSize targetSize d - start64 sourceSize targetSize d ∧
    first64 sourceSize targetSize d - start64 sourceSize targetSize d < 1 := by
  -- A ceiling is less than one above its number.
  obtain ⟨nonneg, -, -⟩ := axis.start64_bounds inside
  have above := Nat.le_ceil (start64 sourceSize targetSize d)
  have below := Nat.ceil_lt_add_one nonneg
  rw [first64]
  constructor <;> linarith

/-- A cell ends no earlier than its first sample. -/
theorem Resolved.first64_le_last64 :
    first64 sourceSize targetSize d ≤ last64 sourceSize targetSize d := by
  -- Both bounds of the last sample are at or after the first one.
  obtain ⟨stops, -⟩ := axis.stop64_bounds inside
  exact le_min (Nat.le_floor stops) (axis.ceil_start64_le inside)

/-- The sample that a cell ends in starts at most one sample before the footprint stops. -/
theorem Resolved.last64_bounds :
    0 ≤ stop64 sourceSize targetSize d - last64 sourceSize targetSize d ∧
    stop64 sourceSize targetSize d - last64 sourceSize targetSize d ≤ 1 + 1 / 2 ^ 30 := by
  obtain ⟨stops, near⟩ := axis.stop64_bounds inside
  have nonneg : 0 ≤ stop64 sourceSize targetSize d := (Nat.cast_nonneg _).trans stops
  have floor := Nat.floor_le nonneg
  have next := Nat.lt_floor_add_one (stop64 sourceSize targetSize d)
  have ends := start_succ_le sourceSize inside
  have samples : 1 ≤ sourceSize := (Nat.one_le_of_lt inside).trans axis.shrinks
  have high := (abs_le.mp near).2
  rw [last64, Nat.cast_min, Nat.cast_sub samples, Nat.cast_one]
  -- Past the last sample of the axis, the footprint ends where the axis does.
  rcases min_cases (⌊stop64 sourceSize targetSize d⌋₊ : ℚ) (sourceSize - 1) with
    ⟨same, order⟩ | ⟨same, order⟩
  · rw [same]
    constructor <;> linarith
  · rw [same]
    constructor <;> linarith

/-- What a cell counts before its first sample is very nearly the length there. -/
theorem Resolved.head64_near :
    |head64 sourceSize targetSize d -
      (first64 sourceSize targetSize d - start64 sourceSize targetSize d)| ≤ 1 / 2 ^ 30 := by
  obtain ⟨-, -, started⟩ := axis.start64_bounds inside
  obtain ⟨low, high⟩ := axis.first64_bounds inside
  have positive := Nat.zero_lt_of_lt inside
  have parts : (targetSize : ℚ) ≠ 0 := by exact_mod_cast positive.ne'
  -- The footprint starts at a multiple of one part in as many as there are destinations.
  have exact_start : start sourceSize targetSize d = d * sourceSize / targetSize := by
    rw [start, scale, mul_div_assoc]
  refine counted_near (j := first64 sourceSize targetSize d * targetSize - d * sourceSize)
    positive axis.few ?_ low (abs_nearest64_sub_le low (by linarith))
  push_cast
  rw [sub_div, mul_div_cancel_right₀ _ parts, ← exact_start, sub_sub_sub_cancel_left, abs_sub_comm]
  exact started.trans (by norm_num)

/-- What a cell counts in its last sample is very nearly the length there. -/
theorem Resolved.tail64_near :
    |tail64 sourceSize targetSize d -
      (stop64 sourceSize targetSize d - last64 sourceSize targetSize d)| ≤ 1 / 2 ^ 28 := by
  obtain ⟨-, stopped⟩ := axis.stop64_bounds inside
  obtain ⟨least, -⟩ := axis.scale_bounds inside
  obtain ⟨low, high⟩ := axis.last64_bounds inside
  have positive := Nat.zero_lt_of_lt inside
  have parts : (targetSize : ℚ) ≠ 0 := by exact_mod_cast positive.ne'
  have covered := abs_le.mp (axis.covered64_bounds inside)
  have rounded := abs_nearest64_sub_le low (by linarith)
  rw [← after64] at rounded
  -- The footprint stops at such a multiple too.
  have exact_stop : start sourceSize targetSize (d + 1) = (d + 1) * sourceSize / targetSize := by
    rw [start, scale, mul_div_assoc]
    push_cast
    rfl
  have counted := counted_near
    (j := (d + 1) * sourceSize - last64 sourceSize targetSize d * targetSize) positive axis.few (by
      push_cast
      rw [sub_div, mul_div_cancel_right₀ _ parts, ← exact_stop, sub_sub_sub_cancel_right]
      exact stopped) low rounded
  unfold tail64
  split_ifs at counted ⊢
  -- The bounds of one sample and of the covered length cut off next to nothing.
  · have bound := (min_le_left (min (after64 sourceSize targetSize d) 1)
      (covered64 sourceSize targetSize d)).trans (min_le_left _ _)
    obtain ⟨roundedLow, roundedHigh⟩ := abs_le.mp rounded
    rw [abs_le]
    constructor
    · rw [le_sub_iff_add_le, le_min_iff, le_min_iff]
      refine ⟨⟨?_, ?_⟩, ?_⟩ <;> linarith
    · linarith
  · exact counted.trans (by norm_num)

/-- What a cell counts of a footprint is very nearly its length. -/
theorem Resolved.lengths_near :
    |head64 sourceSize targetSize d +
      (last64 sourceSize targetSize d - first64 sourceSize targetSize d : Nat) +
      tail64 sourceSize targetSize d - scale sourceSize targetSize| ≤ 1 / 2 ^ 27 := by
  -- The three parts go from the start of the footprint to its stop.
  have started := abs_le.mp (axis.start64_bounds inside).2.2
  have stopped := abs_le.mp (axis.stop64_bounds inside).2
  have head := abs_le.mp (axis.head64_near inside)
  have tail := abs_le.mp (axis.tail64_near inside)
  rw [start_succ] at stopped
  rw [Nat.cast_sub (axis.first64_le_last64 inside), abs_le]
  constructor <;> linarith

end Lengths

end Raster.Area.Share
