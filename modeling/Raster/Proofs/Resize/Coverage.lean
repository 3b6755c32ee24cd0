import Mathlib.Algebra.BigOperators.Ring.List
import Mathlib.Algebra.Order.Floor.Semiring
import Mathlib.Data.Rat.Floor
import Mathlib.Tactic.FieldSimp
import Mathlib.Tactic.Linarith
import Mathlib.Tactic.Positivity
import Mathlib.Tactic.Ring
import Raster.Proofs.Resize.Overlaps

/-!
What a cell covers in exact arithmetic.  Main statements: `sum_cell`, its shares add up to one, less
the overlaps that are too short to be counted, and `value_constant`, what that does to an image
whose samples are all the same.
-/

namespace Raster.Area

open Scalar (lt ofNat one smaller thousandth)

namespace Share

variable {sourceSize targetSize d : Nat}

/-- How many source samples the footprint of a destination is long. -/
def scale (sourceSize targetSize : Nat) : ℚ := sourceSize / targetSize

/-- Where the footprint of a destination starts; it ends where the next one starts. -/
def start (sourceSize targetSize d : Nat) : ℚ := d * scale sourceSize targetSize

/-- The first source sample that starts in the footprint. -/
def firstWhole (sourceSize targetSize d : Nat) : Nat := ⌈start sourceSize targetSize d⌉₊

/-- The source sample in which the footprint ends. -/
def lastPart (sourceSize targetSize d : Nat) : Nat :=
  min ⌊start sourceSize targetSize (d + 1)⌋₊ (sourceSize - 1)

/-- The footprint of the next destination is one scale further. -/
theorem start_succ (sourceSize targetSize d : Nat) :
    start sourceSize targetSize (d + 1) =
      start sourceSize targetSize d + scale sourceSize targetSize := by
  -- Destinations are equally spaced, one scale apart.
  rw [start, start]
  push_cast
  ring

/-- Footprints start on the source axis. -/
theorem start_nonneg (sourceSize targetSize d : Nat) : 0 ≤ start sourceSize targetSize d := by
  unfold start scale
  positivity

/-- An axis that does not grow has footprints of at least one sample. -/
theorem one_le_scale (positive : 0 < targetSize) (shrinks : targetSize ≤ sourceSize) :
    1 ≤ scale sourceSize targetSize := by
  -- In an axis that shrinks, a destination covers at least one sample.
  rw [scale, one_le_div (by exact_mod_cast positive)]
  exact_mod_cast shrinks

/-- Footprints end on the source axis. -/
theorem start_succ_le (sourceSize : Nat) (inside : d < targetSize) :
    start sourceSize targetSize (d + 1) ≤ sourceSize := by
  -- The next destination is at most the number of destinations.
  have positive : (0 : ℚ) < targetSize := by exact_mod_cast Nat.zero_lt_of_lt inside
  have order : ((d + 1 : Nat) : ℚ) ≤ targetSize := by exact_mod_cast inside
  rw [start, scale, mul_div_assoc', div_le_iff₀ positive, mul_comm]
  gcongr

/-- A footprint that ends before the last sample of the axis does has a part of a sample at its
end, and one that does not ends with the whole last sample. -/
theorem lastPart_cases (shrinks : targetSize ≤ sourceSize) (inside : d < targetSize) :
    start sourceSize targetSize (d + 1) - lastPart sourceSize targetSize d =
        Int.fract (start sourceSize targetSize (d + 1)) ∨
      start sourceSize targetSize (d + 1) - lastPart sourceSize targetSize d = 1 ∧
        Int.fract (start sourceSize targetSize (d + 1)) = 0 := by
  -- The last sample of the axis only limits the last footprint.
  have nonneg := start_nonneg sourceSize targetSize (d + 1)
  have whole : ((⌊start sourceSize targetSize (d + 1)⌋₊ : ℤ) : ℚ) =
      ⌊start sourceSize targetSize (d + 1)⌋ := by
    rw [Int.natCast_floor_eq_floor nonneg]
  rw [Int.cast_natCast] at whole
  unfold lastPart
  rcases (start_succ_le sourceSize inside).lt_or_eq with less | same
  · left
    have before := (Nat.floor_lt nonneg).mpr less
    rw [min_eq_left (by omega), whole]
    rfl
  · right
    rw [same, Nat.floor_natCast, min_eq_right (by omega), Nat.cast_sub (by omega), Nat.cast_one]
    exact ⟨by ring, Int.fract_natCast sourceSize⟩

/-- A footprint of at least one sample ends in no sample before its first whole one. -/
theorem firstWhole_le_lastPart (shrinks : targetSize ≤ sourceSize) (inside : d < targetSize) :
    firstWhole sourceSize targetSize d ≤ lastPart sourceSize targetSize d := by
  -- The footprint is at least one sample long and ends on the axis.
  have positive : 0 < targetSize := Nat.zero_lt_of_lt inside
  have long := one_le_scale positive shrinks
  have next := start_succ sourceSize targetSize d
  have ends := start_succ_le sourceSize inside
  have below := Nat.ceil_lt_add_one (start_nonneg sourceSize targetSize d)
  refine le_min (Nat.le_floor ?_) ?_
  · rw [firstWhole]
    linarith
  · rw [firstWhole, Nat.ceil_le, Nat.cast_sub (by omega), Nat.cast_one]
    linarith

/-- A footprint ends in its last sample, at most a sample after the start of that. -/
theorem lastPart_bounds (shrinks : targetSize ≤ sourceSize) (inside : d < targetSize) :
    lastPart sourceSize targetSize d ≤ start sourceSize targetSize (d + 1) ∧
      start sourceSize targetSize (d + 1) ≤ lastPart sourceSize targetSize d + 1 := by
  -- What it has of the last sample is a part of a sample or a whole one.
  have fraction := Int.fract_nonneg (start sourceSize targetSize (d + 1))
  have unit := Int.fract_lt_one (start sourceSize targetSize (d + 1))
  rcases lastPart_cases shrinks inside with part | ⟨whole, -⟩ <;> constructor <;> linarith

/-- A natural number is read as the rational that it is. -/
theorem ofNat_rat (n : Nat) : (ofNat n : ℚ) = n := rfl

/-- One is the rational one. -/
theorem one_rat : (one : ℚ) = 1 := rfl

/-- Narrowing a rational does not change it. -/
theorem narrow_rat (x : ℚ) : Wide.narrow x = x := rfl

/-- Truncating the floor of a rational takes its floor among the natural numbers. -/
theorem toIndex_floor (x : ℚ) : Wide.toIndex (Scalar.floor x) = ⌊x⌋₊ := by
  -- A negative floor truncates to zero, as the natural floor does.
  show ⌊(⌊x⌋ : ℚ)⌋.toNat = ⌊x⌋₊
  rw [Int.floor_intCast, Int.floor_toNat]

/-- Truncating the ceiling of a rational takes its ceiling among the natural numbers. -/
theorem toIndex_ceil (x : ℚ) : Wide.toIndex (Wide.ceil x) = ⌈x⌉₊ := by
  -- The ceiling is written through the floor of the negative.
  have same : x.ceil = ⌈x⌉ := Rat.ceil_eq_neg_floor_neg x
  show ⌊(x.ceil : ℚ)⌋.toNat = ⌈x⌉₊
  rw [same, Int.floor_intCast, Int.ceil_toNat]

/-- The first of two rationals is the smaller one when it is not above the other. -/
theorem smaller_of_le {x y : ℚ} (order : x ≤ y) : smaller x y = x :=
  if_neg (by simpa [lt] using order)

/-- A rational is counted when it is above a thousandth. -/
theorem counted_iff (x : ℚ) : lt thousandth x = true ↔ 1 / 1000 < x := by
  -- An overlap counts from one thousandth on, exclusively.
  show decide ((1 : Nat) / (1000 : Nat) < x) = true ↔ _
  rw [decide_eq_true_iff]
  norm_num

/-- In exact arithmetic the cell of a destination is the footprint cut at source samples. -/
theorem cell_rat (shrinks : targetSize ≤ sourceSize) (inside : d < targetSize) :
    cell ℚ sourceSize targetSize d =
      (if 1 / 1000 < firstWhole sourceSize targetSize d - start sourceSize targetSize d then
        [⟨d, firstWhole sourceSize targetSize d - 1,
          (firstWhole sourceSize targetSize d - start sourceSize targetSize d) /
            scale sourceSize targetSize⟩] else []) ++
      ((List.range' (firstWhole sourceSize targetSize d)
        (lastPart sourceSize targetSize d - firstWhole sourceSize targetSize d)).map fun sample =>
          ⟨d, sample, 1 / scale sourceSize targetSize⟩) ++
      (if 1 / 1000 < start sourceSize targetSize (d + 1) - lastPart sourceSize targetSize d then
        [⟨d, lastPart sourceSize targetSize d,
          (start sourceSize targetSize (d + 1) - lastPart sourceSize targetSize d) /
            scale sourceSize targetSize⟩] else []) := by
  have positive : 0 < targetSize := Nat.zero_lt_of_lt inside
  have long := one_le_scale positive shrinks
  have next := start_succ sourceSize targetSize d
  have ends := start_succ_le sourceSize inside
  -- The part at the end is at most one sample, so no bound on it takes effect.
  have part : start sourceSize targetSize (d + 1) - lastPart sourceSize targetSize d ≤ 1 := by
    linarith [(lastPart_bounds shrinks inside).2]
  have scaled : (ofNat sourceSize / ofNat targetSize : ℚ) = scale sourceSize targetSize := rfl
  have started : ofNat d * scale sourceSize targetSize = start sourceSize targetSize d := rfl
  -- The footprint lies on the axis, so all of it is covered.
  have covered : smaller (scale sourceSize targetSize)
      (sourceSize - start sourceSize targetSize d) = scale sourceSize targetSize :=
    smaller_of_le (by linarith)
  have tail : smaller (smaller
      (start sourceSize targetSize (d + 1) - lastPart sourceSize targetSize d) 1)
        (scale sourceSize targetSize) =
      start sourceSize targetSize (d + 1) - lastPart sourceSize targetSize d := by
    rw [smaller_of_le part, smaller_of_le (part.trans long)]
  have first : min (firstWhole sourceSize targetSize d) (lastPart sourceSize targetSize d) =
      firstWhole sourceSize targetSize d := min_eq_left (firstWhole_le_lastPart shrinks inside)
  simp only [cell, scaled, started, ← next, toIndex_floor, toIndex_ceil]
  rw [← lastPart, ← firstWhole, first]
  simp only [ofNat_rat, one_rat, narrow_rat, covered, tail, counted_iff]

/-- A length that is too short to be counted; a counted one leaves nothing out. -/
def slight (length : ℚ) : ℚ := if length ≤ 1 / 1000 then length else 0

/-- The length of a footprint that its cell leaves out, at its start and at its end. -/
def uncounted (sourceSize targetSize d : Nat) : ℚ :=
  slight (firstWhole sourceSize targetSize d - start sourceSize targetSize d) +
    slight (Int.fract (start sourceSize targetSize (d + 1)))

/-- A part of a sample adds its length to the weights of its cell when it is counted. -/
theorem sum_part (sample : Nat) (length unit : ℚ) :
    ((if 1 / 1000 < length then [(⟨d, sample, length / unit⟩ : Share ℚ)] else []).map weight).sum =
      (length - slight length) / unit := by
  -- A length is either counted or slight.
  unfold slight
  by_cases counted : 1 / 1000 < length
  · rw [if_pos counted, if_neg (not_le.mpr counted)]
    simp
  · rw [if_neg counted, if_pos (not_lt.mp counted)]
    simp

/-- In exact arithmetic the shares of a cell add up to one, less what the cell leaves out. -/
theorem sum_cell (shrinks : targetSize ≤ sourceSize) (inside : d < targetSize) :
    ((cell ℚ sourceSize targetSize d).map weight).sum =
      1 - uncounted sourceSize targetSize d / scale sourceSize targetSize := by
  have long := one_le_scale (Nat.zero_lt_of_lt inside) shrinks
  have next := start_succ sourceSize targetSize d
  have order := firstWhole_le_lastPart shrinks inside
  -- The whole last sample of the axis is counted, so nothing of it is left out.
  have tail : slight (start sourceSize targetSize (d + 1) - lastPart sourceSize targetSize d) =
      slight (Int.fract (start sourceSize targetSize (d + 1))) := by
    rcases lastPart_cases shrinks inside with fraction | ⟨whole, vanishes⟩
    · rw [fraction]
    · rw [whole, vanishes]
      norm_num [slight]
  have body : (((List.range' (firstWhole sourceSize targetSize d)
      (lastPart sourceSize targetSize d - firstWhole sourceSize targetSize d)).map fun sample =>
        (⟨d, sample, 1 / scale sourceSize targetSize⟩ : Share ℚ)).map weight).sum =
      (lastPart sourceSize targetSize d - firstWhole sourceSize targetSize d) /
        scale sourceSize targetSize := by
    have equal : (weight ∘ fun sample =>
        (⟨d, sample, 1 / scale sourceSize targetSize⟩ : Share ℚ)) =
          fun _ => 1 / scale sourceSize targetSize := rfl
    rw [List.map_map, equal, List.map_const', List.sum_replicate, List.length_range',
      nsmul_eq_mul, Nat.cast_sub order, mul_one_div]
  -- The three parts are cut from one footprint, which is one scale long.
  rw [cell_rat shrinks inside, List.map_append, List.map_append, List.sum_append, List.sum_append,
    sum_part, sum_part, body, tail, uncounted, eq_sub_iff_add_eq, ← add_div, ← add_div, ← add_div,
    div_eq_one_iff_eq (by linarith)]
  linarith

/-- A length in parts of which fewer than a thousand make a sample is slight only when it is zero.
-/
theorem slight_eq_zero {t : Nat} (positive : 0 < t) (few : t < 1000) {j : ℤ} {l : ℚ}
    (multiple : l * t = j) (nonneg : 0 ≤ l) : slight l = 0 := by
  have parts : (0 : ℚ) < t := by exact_mod_cast positive
  have most : (t : ℚ) ≤ 999 := by exact_mod_cast Nat.le_of_lt_succ few
  unfold slight
  split_ifs with small
  -- The number of parts is less than one, so there is none.
  · have above : (0 : ℚ) ≤ j := by
      rw [← multiple]
      exact mul_nonneg nonneg parts.le
    have below : (j : ℚ) < 1 := by
      rw [← multiple]
      calc l * t ≤ 1 / 1000 * 999 := mul_le_mul small most parts.le (by norm_num)
        _ < 1 := by norm_num
    have vanishes : j = 0 := by
      have low : 0 ≤ j := by exact_mod_cast above
      have high : j < 1 := by exact_mod_cast below
      omega
    rw [vanishes, Int.cast_zero] at multiple
    exact (mul_eq_zero.mp multiple).resolve_right parts.ne'
  · rfl

/-- Where fewer than a thousand destinations share an axis, their cells leave nothing out. -/
theorem uncounted_eq_zero (few : targetSize < 1000) (inside : d < targetSize) :
    uncounted sourceSize targetSize d = 0 := by
  have positive : 0 < targetSize := Nat.zero_lt_of_lt inside
  have parts : (targetSize : ℚ) ≠ 0 := by exact_mod_cast positive.ne'
  -- Footprints start and stop at multiples of one part in as many as there are destinations.
  have position : ∀ e : Nat, start sourceSize targetSize e * targetSize = e * sourceSize := by
    intro e
    rw [start, scale, mul_assoc, div_mul_cancel₀ _ parts]
  have before := slight_eq_zero positive few
    (j := firstWhole sourceSize targetSize d * targetSize - d * sourceSize)
    (l := firstWhole sourceSize targetSize d - start sourceSize targetSize d)
    (by rw [sub_mul, position]; push_cast; rfl) (sub_nonneg.mpr (Nat.le_ceil _))
  have after := slight_eq_zero positive few
    (j := (d + 1 : Nat) * sourceSize - ⌊start sourceSize targetSize (d + 1)⌋ * targetSize)
    (l := Int.fract (start sourceSize targetSize (d + 1)))
    (by rw [Int.fract, sub_mul, position]; push_cast; rfl) (Int.fract_nonneg _)
  rw [uncounted, before, after, add_zero]

/-- A cell leaves out less than two thousandths of a sample. -/
theorem uncounted_bounds (sourceSize targetSize d : Nat) :
    0 ≤ uncounted sourceSize targetSize d ∧ uncounted sourceSize targetSize d ≤ 1 / 500 := by
  -- Neither part of the footprint is negative, and each is left out only when it is slight.
  have least := Nat.le_ceil (start sourceSize targetSize d)
  have fraction := Int.fract_nonneg (start sourceSize targetSize (d + 1))
  unfold uncounted slight firstWhole
  split_ifs <;> constructor <;> linarith

end Share

namespace Overlaps

/-- In exact arithmetic weighting is a sum of products. -/
theorem weighted_rat (terms : List (ℚ × ℚ)) :
    weighted terms = (terms.map fun term => term.1 * term.2).sum := by
  -- The fold starts from the scalar zero, which is the rational one.
  have zero : (Scalar.zero : ℚ) = 0 := rfl
  rw [weighted, List.sum_eq_foldl, List.foldl_map, zero]

/-- In exact arithmetic an image whose samples are all the same loses, on either axis, the share of
its value that the cell of that axis leaves out. -/
theorem value_constant {sourceSize targetSize d sourceSize' targetSize' e : Nat} (sample : ℚ)
    (shrinks : targetSize ≤ sourceSize) (inside : d < targetSize)
    (shrinks' : targetSize' ≤ sourceSize') (inside' : e < targetSize') :
    value (fun _ _ => sample) (Share.cell ℚ sourceSize targetSize d)
        (Share.cell ℚ sourceSize' targetSize' e) =
      sample *
        (1 - Share.uncounted sourceSize' targetSize' e / Share.scale sourceSize' targetSize') *
        (1 - Share.uncounted sourceSize targetSize d / Share.scale sourceSize targetSize) := by
  -- A weighted sum of equal numbers is the number times the sum of the weights.
  have scaled : ∀ (number : ℚ) (cell : List (Share ℚ)),
      weighted (cell.map fun share => (number, share.weight)) =
        number * (cell.map Share.weight).sum := by
    intro number cell
    rw [weighted_rat, List.map_map, ← List.sum_map_mul_left]
    rfl
  rw [← Share.sum_cell shrinks inside, ← Share.sum_cell shrinks' inside', ← scaled, ← scaled]
  rfl

end Overlaps

end Raster.Area
