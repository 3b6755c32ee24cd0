import Raster.Proofs.Kernel.Transform
import Raster.Proofs.Resize.Footprint

/-!
Area averaging by whole factors and by overlap, in exact arithmetic.  Main statement:
`transform?_blocks_eq_overlaps`, where blocks tile the source, averaging them writes what weighting
overlaps writes.
-/

namespace Raster.Area

namespace Share

variable {targetSize factor d : Nat}

/-- Footprints of a whole number of samples start at a sample. -/
theorem start_whole (inside : d < targetSize) (e : Nat) :
    start (targetSize * factor) targetSize e = (e * factor : Nat) := by
  -- The target's extent cancels: there is a destination, so it is positive.
  have positive : (targetSize : ℚ) ≠ 0 := by exact_mod_cast (Nat.zero_lt_of_lt inside).ne'
  rw [start, scale]
  push_cast
  field_simp

/-- Such a footprint ends where its block does. -/
theorem stop_whole (inside : d < targetSize) :
    start (targetSize * factor) targetSize (d + 1) = (d * factor + factor : Nat) := by
  rw [start_whole inside, Nat.succ_mul]

/-- The samples of its block lie in it whole. -/
theorem overlap_block (inside : d < targetSize) {s : Nat}
    (member : s ∈ List.range' (d * factor) factor) :
    overlap (targetSize * factor) targetSize d s = 1 := by
  -- The block lies within the footprint, which starts and ends between samples.
  obtain ⟨low, high⟩ := List.mem_range'_1.mp member
  refine overlap_of_inside ?_ ?_
  · rw [start_whole inside]
    exact_mod_cast low
  · rw [stop_whole inside]
    exact_mod_cast high

/-- The samples that count for a footprint of a whole number of samples are those of its block. -/
theorem counted_whole (inside : d < targetSize) :
    counted (targetSize * factor) targetSize d = List.range' (d * factor) factor := by
  have order : d * factor + factor ≤ targetSize * factor := by
    rw [← Nat.succ_mul]
    exact Nat.mul_le_mul_right factor inside
  -- No sample outside the block reaches into the footprint.
  have before : ∀ s ∈ List.range (d * factor),
      overlap (targetSize * factor) targetSize d s = 0 := by
    intro s member
    refine overlap_of_before ?_
    rw [start_whole inside]
    exact_mod_cast List.mem_range.mp member
  have after : ∀ s ∈ List.range' (d * factor + factor)
      (targetSize * factor - (d * factor + factor)),
        overlap (targetSize * factor) targetSize d s = 0 := by
    intro s member
    refine overlap_of_after ?_
    rw [stop_whole inside]
    exact_mod_cast (List.mem_range'_1.mp member).1
  -- The axis is what is before the block, the block and what is after it.
  rw [counted, range_cut (Nat.le_add_right _ _) order, Nat.add_sub_cancel_left, List.filter_append,
    List.filter_append, filter_eq_nil before, filter_eq_self fun s => overlap_block inside,
    filter_eq_nil after, List.nil_append, List.append_nil]

/-- The cell of a footprint of a whole number of samples gives every sample of its block the same
share. -/
theorem cell_whole (inside : d < targetSize) (positive : 0 < factor) :
    cell ℚ (targetSize * factor) targetSize d =
      (List.range' (d * factor) factor).map fun s => ⟨d, s, 1 / factor⟩ := by
  have size : (targetSize : ℚ) ≠ 0 := by exact_mod_cast (Nat.zero_lt_of_lt inside).ne'
  -- A footprint is as long as its block, and a sample of the block has overlap one with it.
  have long : scale (targetSize * factor) targetSize = factor := by
    rw [scale, Nat.cast_mul, mul_div_cancel_left₀ _ size]
  rw [cell_eq_counted (Nat.le_mul_of_pos_right _ positive) inside, counted_whole inside, long]
  refine List.map_congr_left fun s member => ?_
  rw [overlap_block inside member]

end Share

variable {α : Type} [Element α ℚ ℚ] {channels : Nat}

/-- Where blocks tile both axes, the mean of a block is the overlap-weighted mean. -/
theorem mean_eq_value {across down : Nat} {target : Extent} {y x : Nat} (sample : Nat → Nat → α)
    (wide : 0 < across) (tall : 0 < down) (inImage : y < target.height) (inRow : x < target.width) :
    Element.ofSingle (Blocks.mean across down (Blocks.block sample across down y x)) =
      Overlaps.value sample (Share.cell ℚ (target.height * down) target.height y)
        (Share.cell ℚ (target.width * across) target.width x) := by
  -- The shares of a row and of a column are constant, so they come out of the sums over the block.
  rw [Blocks.mean_rat, Blocks.sum_block, Overlaps.value, Share.cell_whole inImage tall,
    Share.cell_whole inRow wide]
  simp only [Overlaps.decimated, Overlaps.weighted_rat, List.map_map, Function.comp_def,
    List.sum_map_mul_right]
  push_cast
  apply congrArg
  rw [mul_assoc, div_mul_div_comm, one_mul, mul_one_div]

/-- In exact arithmetic, where blocks are planned, averaging them and weighting overlaps write the
same over a target. -/
theorem transform?_blocks_eq_overlaps {across down : Nat} {source target : View α channels}
    (planned : plan? source.extent target.extent = some (.blocks across down)) :
    ∃ written,
      transform? (fun image => Blocks.resize? image across down target.extent) source target =
        some written ∧
      transform? (fun image => Overlaps.resize? image target.extent) source target =
        some written := by
  rw [plan?_eq_plan target.fits.height_pos target.fits.width_pos, Option.some.injEq] at planned
  obtain ⟨rows, columns⟩ : source.layout.height = target.layout.height * down ∧
    source.layout.width = target.layout.width * across := tiles_of_plan planned
  have tall : 0 < down := Nat.pos_of_mul_pos_left (rows ▸ source.fits.height_pos)
  have wide : 0 < across := Nat.pos_of_mul_pos_left (columns ▸ source.fits.width_pos)
  obtain ⟨sample, visible⟩ := source.exists_shows
  obtain ⟨image, loaded, height, width, hasRows, hasColumns, shows⟩ := visible.exists_load?
  -- Both computations give an image of the target's extent, with the same samples.
  obtain ⟨averaged, built, averagedHeight, averagedWidth, means⟩ :=
    Blocks.exists_resize? shows target.extent (height.trans rows) (width.trans columns)
  obtain ⟨weighted, combined, weightedHeight, weightedWidth, values⟩ :=
    Overlaps.exists_resize? Share.startsInside_rat shows hasRows hasColumns target.extent
  have same : averaged = weighted := by
    refine means.unique ?_ (averagedHeight.trans weightedHeight.symm)
      (averagedWidth.trans weightedWidth.symm)
    intro y x c inImage inRow inPixel
    rw [values y x c inImage inRow inPixel, height, width, rows, columns]
    rw [weightedHeight] at inImage
    rw [weightedWidth] at inRow
    exact congrArg some (mean_eq_value _ wide tall inImage inRow).symm
  obtain ⟨written, stored, -⟩ := target.exists_store? averaged averagedHeight averagedWidth
  refine ⟨written, ?_, ?_⟩
  · simp only [transform?, loaded, built, stored, Option.bind_eq_bind, Option.bind_some]
  · simp only [transform?, loaded, combined, ← same, stored, Option.bind_eq_bind, Option.bind_some]

/-- Two rows of four numbers. -/
def eightNumbers : View ℚ 1 :=
  ⟨⟨2, 4, 4⟩, #[1, 2, 3, 4, 5, 6, 7, 9], Layout.check_eq_ok_iff.mp rfl⟩

/-- Room for a row of two numbers. -/
def twoNumbers : View ℚ 1 := ⟨⟨1, 2, 2⟩, #[8, 8], Layout.check_eq_ok_iff.mp rfl⟩

/-- Eight numbers are averaged in fours either way, and the second mean is 23 quarters. -/
theorem transform?_eightNumbers :
    plan? eightNumbers.extent twoNumbers.extent = some (.blocks 2 2) ∧ ∃ written,
      transform? (fun image => Blocks.resize? image 2 2 twoNumbers.extent) eightNumbers
        twoNumbers = some written ∧
      transform? (fun image => Overlaps.resize? image twoNumbers.extent) eightNumbers
        twoNumbers = some written ∧ written.sample? 0 1 0 = some (23 / 4) := by
  obtain ⟨written, blocks, overlaps⟩ :=
    @transform?_blocks_eq_overlaps ℚ _ 1 2 2 eightNumbers twoNumbers rfl
  -- Both paths write the same view, so it is enough to run the cheaper one.
  have read : ((transform? (fun image => Blocks.resize? image 2 2 twoNumbers.extent) eightNumbers
      twoNumbers).bind fun written => written.sample? 0 1 0) = some (23 / 4) := by decide +kernel
  rw [blocks] at read
  exact ⟨rfl, written, blocks, overlaps, read⟩

end Raster.Area
