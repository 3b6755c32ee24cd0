import Mathlib.Algebra.BigOperators.Ring.Finset
import Raster.Proofs.Resize.Footprint

/-!
Taps of a growing axis and footprints, in exact arithmetic.  Main statement:
`growth_averages_footprints`, the taps of a destination give every source sample its share of the
footprint, so an image that grows is averaged over the footprints of its destinations.
-/

namespace Raster

open Scalar (lt ofNat zero)

namespace Tap

/-- The share that a tap gives a source sample, as its first and as its second one. -/
def given (tap : Tap ℚ) (s : Nat) : ℚ :=
  (if s = tap.low then 1 - tap.weight else 0) + if s = tap.high then tap.weight else 0

/-- What a tap mixes on an axis is the sum of its samples, each with the share that it is given. -/
theorem mix_eq_sum {tap : Tap ℚ} {size : Nat} (inside : tap.Inside size) (number : Nat → ℚ) :
    mix tap.weight (number tap.low) (number tap.high) =
      ∑ s ∈ Finset.range size, tap.given s * number s := by
  -- No other sample is given a share.
  simp only [given, add_mul, ite_mul, zero_mul, Finset.sum_add_distrib, Finset.sum_ite_eq',
    Finset.mem_range, inside.1, inside.2, if_true, mix_rat]
  ring

end Tap

namespace Area

open Share (scale start start_succ start_nonneg start_succ_le ofNat_rat narrow_rat toIndex_floor)

variable {sourceSize targetSize d s : Nat}

/-- The source sample in which the footprint of a destination starts. -/
def firstPart (sourceSize targetSize d : Nat) : Nat := ⌊start sourceSize targetSize d⌋₊

/-- The length of a footprint past the end of the sample in which it starts. -/
def spill (sourceSize targetSize d : Nat) : ℚ :=
  max 0 (start sourceSize targetSize (d + 1) - (firstPart sourceSize targetSize d + 1))

/-- What a number below one has above its floor is the number, where it is positive. -/
theorem folded_of_lt_one {reach : ℚ} (less : reach < 1) :
    (if lt zero reach then reach - Scalar.floor reach else zero) = max 0 reach := by
  -- The comparison and zero of a scalar are those of the rationals.
  have positive : lt zero reach = true ↔ 0 < reach := decide_eq_true_iff
  have start : (zero : ℚ) = 0 := rfl
  rw [start]
  split_ifs with counts
  · -- A fold below one has floor zero, so it is kept as it is.
    have nonneg := (positive.mp counts).le
    have floor : (Scalar.floor reach : ℚ) = ⌊reach⌋ := rfl
    rw [max_eq_right nonneg, floor, Int.floor_eq_zero_iff.mpr ⟨nonneg, less⟩, Int.cast_zero,
      sub_zero]
  · exact (max_eq_left (not_lt.mp (mt positive.mpr counts))).symm

section Growing

variable (positive : 0 < sourceSize) (grows : sourceSize ≤ targetSize) (inside : d < targetSize)

/-- The first sample of a footprint holds its start. -/
theorem firstPart_bounds (sourceSize targetSize d : Nat) :
    firstPart sourceSize targetSize d ≤ start sourceSize targetSize d ∧
      start sourceSize targetSize d < firstPart sourceSize targetSize d + 1 :=
  ⟨Nat.floor_le (start_nonneg sourceSize targetSize d), Nat.lt_floor_add_one _⟩

include positive inside in
/-- The scale of an axis that has samples is positive. -/
theorem scale_pos : 0 < scale sourceSize targetSize := by
  -- Both extents are positive: the target's because it has a destination.
  have samples : (0 : ℚ) < sourceSize := by exact_mod_cast positive
  have destinations : (0 : ℚ) < targetSize := by exact_mod_cast Nat.zero_lt_of_lt inside
  exact div_pos samples destinations

include grows inside in
/-- An axis that does not shrink has footprints of at most one sample. -/
theorem scale_le_one : scale sourceSize targetSize ≤ 1 := by
  -- The comparison of the quotient with one is the comparison of the two extents.
  rw [scale, div_le_one (by exact_mod_cast Nat.zero_lt_of_lt inside)]
  exact_mod_cast grows

include positive inside in
/-- The first sample of a footprint lies on the source axis. -/
theorem firstPart_lt : firstPart sourceSize targetSize d < sourceSize := by
  -- The footprint starts before it ends, and it ends on the axis.
  have next := start_succ sourceSize targetSize d
  have ends := start_succ_le sourceSize inside
  have long := scale_pos positive inside
  rw [firstPart, Nat.floor_lt (start_nonneg _ _ _)]
  linarith

include inside in
/-- A footprint that starts in the last sample does not reach past it. -/
theorem spill_of_last (last : sourceSize - 1 ≤ firstPart sourceSize targetSize d) :
    spill sourceSize targetSize d = 0 := by
  have ends := start_succ_le sourceSize inside
  -- The end of the last sample is the end of the axis.
  have whole : (sourceSize : ℚ) ≤ firstPart sourceSize targetSize d + 1 := by
    exact_mod_cast (by omega : sourceSize ≤ firstPart sourceSize targetSize d + 1)
  exact max_eq_left (sub_nonpos.mpr (ends.trans whole))

include positive inside in
/-- Less than a whole footprint lies past the end of its first sample. -/
theorem spill_bounds : 0 ≤ spill sourceSize targetSize d ∧
    spill sourceSize targetSize d < scale sourceSize targetSize := by
  -- The footprint starts before the end of its first sample.
  have next := start_succ sourceSize targetSize d
  have starts := (firstPart_bounds sourceSize targetSize d).2
  refine ⟨le_max_left _ _, max_lt (scale_pos positive inside) ?_⟩
  linarith

/-- The first sample of a footprint holds what is not past its end. -/
theorem overlap_first (sourceSize targetSize d : Nat) :
    overlap sourceSize targetSize d (firstPart sourceSize targetSize d) =
      scale sourceSize targetSize - spill sourceSize targetSize d := by
  -- Either the footprint ends in its first sample or it reaches past the end of it.
  obtain ⟨starts, meets⟩ := firstPart_bounds sourceSize targetSize d
  have next := start_succ sourceSize targetSize d
  unfold spill
  rcases le_total (start sourceSize targetSize (d + 1))
    (firstPart sourceSize targetSize d + 1) with within | past
  · rw [overlap_of_around starts within, max_eq_left (by linarith), sub_zero]
  · rw [overlap_of_start starts meets.le past, max_eq_right (by linarith), next]
    ring

include grows inside in
/-- The sample after it holds the rest. -/
theorem overlap_second : overlap sourceSize targetSize d (firstPart sourceSize targetSize d + 1) =
    spill sourceSize targetSize d := by
  obtain ⟨-, meets⟩ := firstPart_bounds sourceSize targetSize d
  have next := start_succ sourceSize targetSize d
  -- The footprint is at most a sample long, so it ends in this one or before it.
  have short := scale_le_one grows inside
  have place : ((firstPart sourceSize targetSize d + 1 : Nat) : ℚ) =
      firstPart sourceSize targetSize d + 1 := Nat.cast_succ _
  unfold spill
  rw [← place] at meets ⊢
  rcases le_total (start sourceSize targetSize (d + 1))
    (firstPart sourceSize targetSize d + 1 : Nat) with within | past
  · rw [overlap_of_after within, max_eq_left (by linarith)]
  · rw [overlap_of_stop meets.le past (by linarith), max_eq_right (by linarith)]

include grows inside in
/-- No other sample overlaps with a footprint of at most one sample. -/
theorem overlap_elsewhere (first : s ≠ firstPart sourceSize targetSize d)
    (second : s ≠ firstPart sourceSize targetSize d + 1) :
    overlap sourceSize targetSize d s = 0 := by
  -- The footprint starts in the first sample and ends before the third.
  obtain ⟨starts, meets⟩ := firstPart_bounds sourceSize targetSize d
  have next := start_succ sourceSize targetSize d
  have short := scale_le_one grows inside
  rcases Nat.lt_or_gt_of_ne first with before | after
  · exact overlap_of_before (le_trans (by exact_mod_cast before) starts)
  · have later : (firstPart sourceSize targetSize d : ℚ) + 2 ≤ s := by
      exact_mod_cast (by omega : firstPart sourceSize targetSize d + 2 ≤ s)
    exact overlap_of_after (by linarith)

include positive inside in
/-- In exact arithmetic the weight of a tap is the share of its footprint that lies past the end of
its first sample. -/
theorem tap_rat : Growth.tap ℚ sourceSize targetSize d =
    if sourceSize - 1 ≤ firstPart sourceSize targetSize d then
      ⟨sourceSize - 1, sourceSize - 1, 0⟩
    else ⟨firstPart sourceSize targetSize d, firstPart sourceSize targetSize d + 1,
      spill sourceSize targetSize d / scale sourceSize targetSize⟩ := by
  have long := scale_pos positive inside
  have destinations : (targetSize : ℚ) ≠ 0 := by exact_mod_cast (Nat.zero_lt_of_lt inside).ne'
  have samples : (sourceSize : ℚ) ≠ 0 := by exact_mod_cast positive.ne'
  -- What the tap computes in destination steps is the same length in samples, scaled.
  have reach : ((d + 1 : Nat) : ℚ) - ((firstPart sourceSize targetSize d + 1 : Nat) : ℚ) *
      (targetSize / sourceSize) =
      (start sourceSize targetSize (d + 1) - (firstPart sourceSize targetSize d + 1)) /
        scale sourceSize targetSize := by
    unfold start scale
    push_cast
    field_simp
  have scaled : (ofNat sourceSize / ofNat targetSize : ℚ) = scale sourceSize targetSize := rfl
  have started : ofNat d * scale sourceSize targetSize = start sourceSize targetSize d := rfl
  have less : (start sourceSize targetSize (d + 1) - (firstPart sourceSize targetSize d + 1)) /
      scale sourceSize targetSize < 1 := by
    rw [div_lt_one long]
    exact (le_max_right _ _).trans_lt (spill_bounds positive inside).2
  simp only [Growth.tap, scaled, started, toIndex_floor]
  rw [← firstPart]
  simp only [ofNat_rat, narrow_rat, reach, folded_of_lt_one less]
  rw [spill, ← max_div_div_right long.le, zero_div]
  rfl

/-- The tap of a destination shares its samples as the footprint does: the samples are in order on
the source axis, the second has a weight below one, and each is given its share of the footprint. -/
structure Covers (tap : Tap ℚ) (sourceSize targetSize d : Nat) : Prop where
  -- At the last sample both ends of the tap are that sample.
  ordered : tap.low ≤ tap.high
  inside : tap.high < sourceSize
  nonneg : 0 ≤ tap.weight
  below : tap.weight < 1
  given : ∀ s, s < sourceSize →
    tap.given s = overlap sourceSize targetSize d s / scale sourceSize targetSize

include positive grows inside in
/-- On an axis that does not shrink every tap covers the footprint of its destination. -/
theorem covers_tap :
    Covers (Growth.tap ℚ sourceSize targetSize d) sourceSize targetSize d := by
  have long := scale_pos positive inside
  have first := overlap_first sourceSize targetSize d
  have elsewhere := fun s => overlap_elsewhere (s := s) grows inside
  rw [tap_rat positive inside]
  split_ifs with last
  -- The last sample is taken alone, and the footprint does not reach past it.
  · have same : firstPart sourceSize targetSize d = sourceSize - 1 :=
      le_antisymm (Nat.le_sub_one_of_lt (firstPart_lt positive inside)) last
    refine ⟨le_rfl, by dsimp only; omega, le_rfl, zero_lt_one, fun s onAxis => ?_⟩
    rw [same, spill_of_last inside last, sub_zero] at first
    by_cases at_last : s = sourceSize - 1
    · rw [at_last, first, div_self long.ne']
      simp [Tap.given]
    · rw [elsewhere s (by omega) (by omega)]
      simp [Tap.given, at_last]
  -- Elsewhere the two samples share the footprint between them.
  · have second := overlap_second grows inside
    obtain ⟨nonneg, below⟩ := spill_bounds positive inside
    refine ⟨Nat.le_succ _, by dsimp only; omega, div_nonneg nonneg long.le,
      (div_lt_one long).mpr below, fun s onAxis => ?_⟩
    by_cases at_first : s = firstPart sourceSize targetSize d
    · rw [at_first, first, sub_div, div_self long.ne']
      simp [Tap.given]
    by_cases at_second : s = firstPart sourceSize targetSize d + 1
    · rw [at_second, second]
      simp [Tap.given]
    · rw [elsewhere s at_first at_second]
      simp [Tap.given, at_first, at_second]

end Growing

variable {α : Type} [Element α ℚ ℚ]

/-- The mean of the samples of a channel over the footprint of a destination. -/
def footprintMean (source target : Extent) (sample : Nat → Nat → α) (y x : Nat) : ℚ :=
  -- Each sample counts by the area of the rectangle that it shares with the footprint.
  (∑ row ∈ Finset.range source.height, ∑ column ∈ Finset.range source.width,
    overlap source.height target.height y row * overlap source.width target.width x column *
      Element.toSingle (sample row column)) /
    (scale source.height target.height * scale source.width target.width)

/-- Taps that cover the footprint of a destination on both axes give its mean. -/
theorem value_eq_footprintMean {source target : Extent} {rows columns : Tap ℚ} {y x : Nat}
    (down : Covers rows source.height target.height y)
    (across : Covers columns source.width target.width x) (sample : Nat → Nat → Nat → α) (c : Nat) :
    Tap.value sample rows columns c = Element.ofSingle
      (footprintMean source target (fun row column => sample row column c) y x) := by
  have inHeight : rows.Inside source.height := ⟨down.ordered.trans_lt down.inside, down.inside⟩
  have inWidth : columns.Inside source.width :=
    ⟨across.ordered.trans_lt across.inside, across.inside⟩
  have blended := fun row => Tap.mix_eq_sum inWidth fun column =>
    (Element.toSingle (sample row column c) : ℚ)
  have mixed := Tap.mix_eq_sum inHeight fun row => ∑ column ∈ Finset.range source.width,
    columns.given column * (Element.toSingle (sample row column c) : ℚ)
  -- The shares of a row and of a column in it multiply to the share of the sample.
  rw [Tap.value, Tap.blend, blended, blended, mixed, footprintMean, Finset.sum_div]
  congr 1
  refine Finset.sum_congr rfl fun row inRows => ?_
  rw [Finset.mul_sum, Finset.sum_div]
  refine Finset.sum_congr rfl fun column inColumns => ?_
  rw [down.given row (Finset.mem_range.mp inRows),
    across.given column (Finset.mem_range.mp inColumns)]
  ring

/-- In exact arithmetic the taps of an axis that does not shrink cover the footprints of its
destinations, so an image that grows is averaged over the footprint of every pixel. -/
theorem growth_averages_footprints :
    (∀ sourceSize targetSize, 0 < sourceSize → sourceSize ≤ targetSize →
      ∃ taps, Growth.table? ℚ sourceSize targetSize = some taps ∧ taps.size = targetSize ∧
        ∀ d, d < targetSize → ∃ tap, taps[d]? = some tap ∧ Covers tap sourceSize targetSize d) ∧
    ∀ {channels : Nat} {source target : View α channels} {sample : Nat → Nat → Nat → α},
      checkChannels channels = .ok () → source.Shows sample →
      source.extent.height ≤ target.extent.height → source.extent.width ≤ target.extent.width →
      source.extent.width < target.extent.width ∨ source.extent.height < target.extent.height →
      ∃ written, resize .area source target = .ok (some written) ∧
        written.layout = target.layout ∧ written.Shows fun y x c =>
          Element.ofSingle (footprintMean source.extent target.extent
            (fun row column => sample row column c) y x) := by
  constructor
  · intro sourceSize targetSize positive grows
    refine ⟨_, Growth.table?_eq_table positive, by simp, fun d inside => ?_⟩
    exact ⟨_, getElem?_table _ inside, covers_tap positive grows inside⟩
  · intro channels source target sample accepted shows tall wide grows
    -- An axis grows, so the image is blended through taps, and these cover the footprints.
    have planned : plan? source.extent target.extent = some .growth := if_pos grows
    obtain ⟨written, finished, layout, values⟩ := exists_resize_growth accepted planned shows
    refine ⟨written, finished, layout, fun y x c inImage inRow inPixel => ?_⟩
    rw [values y x c inImage inRow inPixel]
    rw [layout] at inImage inRow
    exact congrArg some (value_eq_footprintMean
      (covers_tap source.fits.height_pos tall inImage)
      (covers_tap source.fits.width_pos wide inRow) sample c)

/-- A row of two numbers. -/
def pairRow : View ℚ 1 := ⟨⟨1, 2, 2⟩, #[2, 5], Layout.check_eq_ok_iff.mp rfl⟩

/-- Room for a row of three numbers. -/
def tripleRow : View ℚ 1 := ⟨⟨1, 3, 3⟩, #[0, 0, 0], Layout.check_eq_ok_iff.mp rfl⟩

/-- The samples of the row of two numbers. -/
theorem pairRow_shows : pairRow.Shows fun _ x _ => if x = 0 then 2 else 5 :=
  View.shows_of_row rfl (by decide)

/-- Where two samples become three, the footprint of the second destination is half in each. -/
theorem growth_averages_pairRow : 0 < 2 ∧ 2 ≤ 3 ∧
    (∃ taps, Growth.table? ℚ 2 3 = some taps ∧ ∃ tap, taps[1]? = some tap ∧ tap.given 1 = 1 / 2) ∧
    ∃ written, resize .area pairRow tripleRow = .ok (some written) ∧
      written.sample? 0 0 0 = some 2 ∧ written.sample? 0 1 0 = some (7 / 2) ∧
      written.sample? 0 2 0 = some 5 := by
  -- The table of the first axis and the image are instances of the two parts of the theorem.
  obtain ⟨tables, images⟩ := growth_averages_footprints (α := ℚ)
  obtain ⟨taps, computed, -, covers⟩ := tables 2 3 (by decide) (by decide)
  obtain ⟨tap, found, covered⟩ := covers 1 (by decide)
  obtain ⟨written, finished, layout, values⟩ := @images 1 pairRow tripleRow _ rfl
    pairRow_shows (by decide) (by decide) (by decide)
  -- Left, middle and right: the middle destination covers half of each sample.
  refine ⟨by decide, by decide, ⟨taps, computed, tap, found, ?_⟩, written, finished, ?_, ?_, ?_⟩
  · exact (covered.given 1 (by decide)).trans (by decide +kernel)
  · rw [values 0 0 0 (by rw [layout]; decide) (by rw [layout]; decide) (by decide)]
    exact congrArg some (by decide +kernel)
  · rw [values 0 1 0 (by rw [layout]; decide) (by rw [layout]; decide) (by decide)]
    exact congrArg some (by decide +kernel)
  · rw [values 0 2 0 (by rw [layout]; decide) (by rw [layout]; decide) (by decide)]
    exact congrArg some (by decide +kernel)

end Area

end Raster
