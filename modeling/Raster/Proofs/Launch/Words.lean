import Raster.Launch.Word
import Raster.Proofs.Box.Folded
import Raster.Proofs.Launch.Finish
import Raster.Proofs.Resize.Copies
import Raster.Proofs.Resize.Partition
import Raster.Proofs.Resize.Ranges
import Raster.Proofs.View.Routes

/-!
What kernels form of sizes, indices and counts on views of at most `2 ^ 47` samples.  Main
statement: `kernels_in_words`, nothing of it leaves its words but a product of the nearest mode,
which combines the sizes of two buffers.
-/

namespace Raster

namespace Layout

variable {layout : Layout} {channels length : Nat}

/-- A buffer that holds a layout has room for its visible samples without gaps. -/
theorem Fits.packed_le (fits : layout.Fits channels length) :
    layout.height * layout.rowLength channels ≤ length := by
  -- No row is longer than the stride, and the last one is counted in full.
  have stride := Nat.mul_le_mul_left (layout.height - 1) fits.rowLength_le
  have rows : layout.height * layout.rowLength channels =
      (layout.height - 1) * layout.rowLength channels + layout.rowLength channels := by
    rw [← Nat.succ_mul, Nat.succ_eq_add_one, Nat.sub_add_cancel fits.height_pos]
  have whole := fits.required_le
  unfold required at whole
  omega

/-- Neither side of a layout with channels is longer than the buffer, nor are both multiplied. -/
theorem Fits.sides_le (fits : layout.Fits channels length) (positive : 0 < channels) :
    layout.height ≤ length ∧ layout.width ≤ length ∧ layout.width * layout.height ≤ length := by
  have area : layout.width * layout.height ≤ length := by
    refine le_trans ?_ fits.packed_le
    rw [rowLength, Nat.mul_comm]
    exact Nat.mul_le_mul_left _ (Nat.le_mul_of_pos_right _ positive)
  -- Each side is at least one, so the other is no longer than the area.
  exact ⟨(Nat.le_mul_of_pos_left _ fits.width_pos).trans area,
    (Nat.le_mul_of_pos_right _ fits.height_pos).trans area, area⟩

end Layout

/-- A view with channels over a buffer whose length is a word is addressed in words. -/
theorem View.inWords {α : Type} {channels : Nat} (view : View α channels) (positive : 0 < channels)
    (word : view.data.size < wordLimit) : view.InWords where
  rows y inImage := by
    obtain ⟨row, read, -⟩ := view.exists_row? inImage
    exact ⟨row, (view.rowWord?_eq_row? word y).trans read, read⟩
  pixels y x inImage inRow := by
    obtain ⟨pixel, read, -⟩ := view.exists_pixel? inImage inRow
    exact ⟨pixel, (view.pixelWord?_eq_pixel? word y x).trans read, read⟩
  places x c inRow inPixel := by
    -- A pixel ends with its row at the latest, and the length of the row is a word.
    have row := view.fits.rowLength_lt
    have pixels := Nat.mul_le_mul_right channels (Nat.succ_le_of_lt inRow)
    rw [Nat.succ_mul] at pixels
    unfold Layout.rowLength at row
    rw [placeWord?, Word.product?_of_lt (by omega), Option.bind_eq_bind, Option.bind_some,
      Word.sum?_of_lt (by omega)]
  packedRows y inImage := by
    -- The rows up to this one fit in the buffer without gaps.
    have rows := (Nat.mul_le_mul_right (view.layout.rowLength channels)
      (Nat.succ_le_of_lt inImage)).trans view.fits.packed_le
    obtain ⟨tall, -, -⟩ := view.fits.sides_le positive
    rw [Nat.succ_eq_add_one] at rows
    have before : y * view.layout.rowLength channels ≤
        (y + 1) * view.layout.rowLength channels := Nat.mul_le_mul_right _ (Nat.le_succ y)
    rw [packedRowWord?, Word.product?_of_lt (by omega), Word.sum?_of_lt (by omega)]
    simp only [Option.bind_eq_bind, Option.bind_some]
    rw [Word.product?_of_lt (by omega), Option.bind_some]

section Resizing

variable {sourceSize targetSize d : Nat}

/-- Copying along an axis stays in words exactly when the product of its last destination does. -/
theorem Nearest.inWords_iff :
    Nearest.InWords sourceSize targetSize ↔ (targetSize - 1) * sourceSize < wordLimit := by
  -- A table exists in words exactly where its last product does, and then it is the one used.
  rw [InWords, tableWord?_eq]
  split <;> simp [*]

/-- Blending along an axis stays in signed words. -/
theorem Linear.inWords (held : Held sourceSize targetSize) (positive : 0 < sourceSize) :
    Linear.InWords sourceSize targetSize := by
  intro d inside
  have samples := held.source_le
  have limit : Word.signedLimit = 2 ^ 63 := rfl
  -- The coordinate of the first sample is hardly past the axis, so there is one after it.
  have low : Wide.toCoordinate (Scalar.floor (position Float sourceSize targetSize d)) ≤ 2 ^ 48 :=
    held.low_le inside
  have least : -2 ^ 63 ≤
      Wide.toCoordinate (Scalar.floor (position Float sourceSize targetSize d)) :=
    Int64.le_toInt _
  have next : Word.signed? (Wide.toCoordinate
      (Scalar.floor (position Float sourceSize targetSize d)) + 1) = some _ :=
    if_pos (Word.isSigned_iff.mpr ⟨by omega, by omega⟩)
  have fold := Border.foldWord?_eq_fold .replicate positive (by omega)
  simp only [tapWord?, next, fold, Option.bind_eq_bind, Option.bind_some, tap]

namespace Area

/-- Averaging along a growing axis stays in words. -/
theorem Growth.inWords (held : Held sourceSize targetSize) (positive : 0 < sourceSize) :
    Growth.InWords sourceSize targetSize := by
  intro d inside
  have index := inside.le.trans held.target_le
  have limit : wordLimit = 2 ^ 64 := rfl
  refine ⟨_, ?_, tap?_eq_tap positive⟩
  -- The sample is hardly past the axis, and the destination lies on its own.
  have sample : Wide.toIndex (Scalar.floor (Scalar.ofNat d *
      (Scalar.ofNat sourceSize / Scalar.ofNat targetSize) : Float)) ≤ 2 ^ 48 :=
    held.sample_le inside
  have after := Word.sum?_of_lt (a := Wide.toIndex (Scalar.floor (Scalar.ofNat d *
      (Scalar.ofNat sourceSize / Scalar.ofNat targetSize) : Float))) (b := 1) (by omega)
  have next := Word.sum?_of_lt (a := d) (b := 1) (by omega)
  rw [← tap?_eq_tap positive]
  simp only [tapWord?, after, next, Option.bind_eq_bind, Option.bind_some]
  rfl

namespace Share

variable {S : Type}

/-- Spans are closed in words if the indices of all entries are words. -/
theorem collectSpansWord?_eq [Scalar S] (table : List (Share S)) (spans : Array Span)
    {index : Nat} (start : Nat) (word : index + table.length < wordLimit) :
    collectSpansWord? spans index start table = collectSpans? spans index start table := by
  -- By induction on the entries that are left, over all spans closed before them.
  induction table generalizing spans index start with
  | nil => rfl
  | cons entry rest ih =>
    rw [List.length_cons] at word
    have later : index + 1 + rest.length < wordLimit := by omega
    rw [collectSpansWord?, collectSpans?, Word.sum?_of_lt (by omega), Option.bind_eq_bind,
      Option.bind_some, ih _ _ later, ih _ _ later]

/-- Weighting along an axis stays in words. -/
theorem inWords (held : Held sourceSize targetSize) (positive : 0 < sourceSize)
    (destinations : 0 < targetSize) : InWords sourceSize targetSize := by
  have samples := held.source_le
  have targets := held.target_le
  have limit : wordLimit = 2 ^ 64 := rfl
  refine ⟨Word.product?_of_lt (by omega), ?_⟩
  -- The table has a few entries for each sample, so the index after each of them is a word.
  have few := held.length_table_le destinations
  obtain ⟨spans, collected, -⟩ := exists_spans? (table_ascending (D := Float) positive)
    fun share member => (mem_table positive member).1
  refine ⟨_, spans, table?_eq_table startsInside_float positive, ?_, collected⟩
  rw [spansWord?, collectSpansWord?_eq _ _ _ (by omega)]
  exact collected

end Share

/-- Averaging blocks that tile an extent of few samples stays in words. -/
theorem Blocks.inWords {source target : Extent} {across down : Nat}
    (tall : source.height = target.height * down) (wide : source.width = target.width * across)
    (few : source.width * source.height < wordLimit) (rows : source.height < wordLimit)
    (columns : source.width < wordLimit) (high : 0 < target.height) (long : 0 < target.width) :
    Blocks.InWords across down target where
  size := by
    -- A block is no larger than the image.
    refine Word.product?_of_lt (lt_of_le_of_lt ?_ few)
    rw [tall, wide]
    exact Nat.mul_le_mul (Nat.le_mul_of_pos_left _ long) (Nat.le_mul_of_pos_left _ high)
  blocks y x inImage inRow := by
    -- A block ends with the image at the latest.
    have bottom := Nat.mul_le_mul_right down (Nat.succ_le_of_lt inImage)
    have right := Nat.mul_le_mul_right across (Nat.succ_le_of_lt inRow)
    rw [Nat.succ_mul, ← tall] at bottom
    rw [Nat.succ_mul, ← wide] at right
    rw [positionsWord?, Word.product?_of_lt (by omega), Word.product?_of_lt (by omega)]
    simp only [Option.bind_eq_bind, Option.bind_some]
    rw [Word.sum?_of_lt (by omega), Word.sum?_of_lt (by omega), Option.bind_some,
      Option.bind_some, Nat.add_sub_cancel_left, Nat.add_sub_cancel_left, positions]

end Area

end Resizing

/-- Windows of any size that is a word are placed in words along an axis of few samples. -/
theorem WindowAxis.inWords {length : Nat} (positive : 0 < length) (few : length ≤ 2 ^ 47)
    {size : Nat} (word : size < wordLimit) (border : Border) :
    WindowAxis.InWords length size border where
  made := makeWord?_eq_make positive (by omega) size border
  parts position inside := by
    have limit : wordLimit = 2 ^ 64 := rfl
    -- A window starts and stops within two words of the axis, whatever its size.
    have half : anchor size ≤ size := Nat.div_le_self size 2
    have start : Word.long? ((position : Int) - anchor size) = some _ :=
      Word.long?_of_lt (by omega) (by omega)
    have axis : (make length size border).size = size := rfl
    have samples : (make length size border).length = length := rfl
    rw [partsWord?, parts, windowStart, windowStop, windowStart, axis, samples, start]
    cases periodic : (make length size border).period? with
    | some period =>
      -- The run starts in the first period and is shorter than one.
      obtain ⟨periodPos, -, most⟩ := periodOf_bounds positive periodic
      have first := Int.emod_lt_of_pos ((position : Int) - anchor size)
        (Int.natCast_pos.mpr periodPos)
      have count := Nat.mod_lt size periodPos
      have stop : Word.sum? (((position : Int) - anchor size) % period).toNat (size % period) =
          some _ := Word.sum?_of_lt (by omega)
      simp only [stop, Option.bind_eq_bind, Option.bind_some]
    | none =>
      have stop : Word.long? ((position : Int) - anchor size + size) = some _ :=
        Word.long?_of_lt (by omega) (by omega)
      have before : Word.long? (-((position : Int) - anchor size)) = some _ :=
        Word.long?_of_lt (by omega) (by omega)
      have behind : Word.long? ((position : Int) - anchor size + size - length) = some _ :=
        Word.long?_of_lt (by omega) (by omega)
      simp only [stop, before, behind, Option.bind_eq_bind, Option.bind_some]

/-- The groups of rows of an image of few rows are delimited in words. -/
theorem RowGroups.inWords {height limit : Nat} (tall : 0 < height) (few : height ≤ 2 ^ 47)
    (positive : 0 < limit) : RowGroups.InWords height limit := by
  have word : wordLimit = 2 ^ 64 := rfl
  have count : min limit height ≠ 0 := by omega
  refine ⟨_, if_neg count, fun group inside => ?_⟩
  -- The groups before the last one have no more rows together than the image and their count.
  have groups : min limit height * ((height + min limit height - 1) / min limit height) ≤
      height + min limit height - 1 := Nat.mul_div_le _ _
  have first : group * ((height + min limit height - 1) / min limit height) ≤
      min limit height * ((height + min limit height - 1) / min limit height) :=
    Nat.mul_le_mul_right _ inside.le
  have rowsPerGroup : (height + min limit height - 1) / min limit height ≤
      height + min limit height - 1 := Nat.div_le_self _ _
  simp only [rowsWord?, rows, start, stop]
  rw [Word.product?_of_lt (by omega), Option.bind_eq_bind, Option.bind_some,
    Word.sum?_of_lt (by omega), Option.bind_some]

/-- Averaging areas stays in words whatever the plan is, on axes that buffers of few samples
hold. -/
theorem Area.inWords {source target : Extent} (rows : Held source.height target.height)
    (columns : Held source.width target.width) (few : source.width * source.height < wordLimit)
    (tall : 0 < source.height) (wide : 0 < source.width) (high : 0 < target.height)
    (long : 0 < target.width) : Resampling.area.InWords source target := by
  have limit : wordLimit = 2 ^ 64 := rfl
  have height := rows.source_le
  have width := columns.source_le
  simp only [Resampling.InWords, plan?_eq_plan high long]
  -- Blocks are bounded by the image, and the tables of the other plans by both axes.
  cases planned : plan source target with
  | blocks across down =>
    obtain ⟨down, across⟩ := tiles_of_plan planned
    exact Blocks.inWords down across few (by omega) (by omega) high long
  | overlaps => exact ⟨Share.inWords rows tall high, Share.inWords columns wide long⟩
  | growth => exact ⟨Growth.inWords rows tall, Growth.inWords columns wide⟩

/-- Whatever kernels form of sizes, indices and counts stays in words on accepted views over buffers
of at most `2 ^ 47` samples: the places of rows and pixels, every mode and plan of resizing, windows
of any size and border, and groups of rows.  The one exception is the product by which the nearest
mode scales a destination; it combines the sizes of both buffers and is a word for all destinations
exactly when it is for the last one of each axis. -/
theorem kernels_in_words {α : Type} {channels : Nat} {source target : View α channels}
    (accepted : checkChannels channels = .ok ()) (held : source.data.size ≤ 2 ^ 47)
    (room : target.data.size ≤ 2 ^ 47) :
    (source.InWords ∧ target.InWords) ∧
    (∀ mode : Resampling, mode.InWords source.extent target.extent ↔ (mode = .nearest →
      (target.layout.height - 1) * source.layout.height < wordLimit ∧
      (target.layout.width - 1) * source.layout.width < wordLimit)) ∧
    (∀ window : BoxWindow, window.width < wordLimit → window.height < wordLimit →
      window.InWords source.extent) ∧
    ∀ limit, 0 < limit → RowGroups.InWords source.layout.height limit := by
  have limit : wordLimit = 2 ^ 64 := rfl
  have positive := channels_pos accepted
  obtain ⟨tall, wide, area⟩ := source.fits.sides_le positive
  obtain ⟨high, long, -⟩ := target.fits.sides_le positive
  -- No side of either view is longer than its buffer.
  have rows : Held source.layout.height target.layout.height := ⟨tall.trans held, high.trans room⟩
  have columns : Held source.layout.width target.layout.width := ⟨wide.trans held, long.trans room⟩
  refine ⟨⟨source.inWords positive (by omega), target.inWords positive (by omega)⟩, fun mode => ?_,
    fun window width height => ?_, fun groups allowed => ?_⟩
  · cases mode with
    | nearest =>
      exact (and_congr Nearest.inWords_iff Nearest.inWords_iff).trans
        ⟨fun words _ => words, fun words => words rfl⟩
    | linear =>
      exact iff_of_true ⟨Linear.inWords rows source.fits.height_pos,
        Linear.inWords columns source.fits.width_pos⟩ nofun
    | area =>
      exact iff_of_true (Area.inWords rows columns (lt_of_le_of_lt area (by omega))
        source.fits.height_pos source.fits.width_pos target.fits.height_pos
        target.fits.width_pos) nofun
  · exact ⟨WindowAxis.inWords source.fits.height_pos (tall.trans held) height window.border,
      WindowAxis.inWords source.fits.width_pos (wide.trans held) width window.border⟩
  · exact RowGroups.inWords source.fits.height_pos (tall.trans held) allowed

/-- Three rows with gaps and a short last one, resized to two, filtered by a window larger than they
are and summed in two groups: every index is found in words. -/
theorem kernels_in_words_shortLastRow :
    checkChannels 1 = .ok () ∧ shortLastRow.data.size ≤ 2 ^ 47 ∧ smallerRows.data.size ≤ 2 ^ 47 ∧
    shortLastRow.rowWord? 2 = some #[5, 4, 3, 2, 1] ∧
    Nearest.tableWord? 5 3 = some #[0, 1, 3] ∧
    (∃ table, Area.Share.table? Float 3 2 = some table ∧
      Area.Share.spansWord? table 2 = some #[⟨0, 2⟩, ⟨2, 4⟩]) ∧
    (WindowAxis.make 5 10 .standard).partsWord? 1 = some ⟨0, 0, 1, 4, 6⟩ ∧
    (∃ groups, RowGroups.of? 3 2 = some groups ∧ groups.rowsWord? 0 = some [0, 1] ∧
      groups.rowsWord? 1 = some [2]) := by
  obtain ⟨⟨reads, -⟩, modes, windows, groups⟩ := @kernels_in_words _ 1 shortLastRow smallerRows rfl
    (by decide) (by decide)
  obtain ⟨row, found, read⟩ := reads.rows 2 (by decide)
  obtain ⟨-, columns⟩ := (modes .nearest).mpr fun _ => ⟨by decide, by decide⟩
  obtain ⟨⟨-, table, spans, weighted, closed, cut⟩, -⟩ := (modes .area).mpr nofun
  obtain ⟨-, across⟩ := windows ⟨10, 6, true, .standard⟩ (by decide) (by decide)
  obtain ⟨divided, count, delimited⟩ := groups 2 (by decide)
  -- What the words find is what the kernels use, and that can be evaluated.
  have five : shortLastRow.row? 2 = some #[5, 4, 3, 2, 1] := rfl
  rw [read] at five
  have two : (Area.Share.table? Float 3 2).bind (Area.Share.spans? · 2) =
      some #[⟨0, 2⟩, ⟨2, 4⟩] := by decide +kernel
  have same : Area.Share.table? Float 3 2 = some table := weighted
  rw [same, Option.bind_some] at two
  obtain rfl : spans = #[⟨0, 2⟩, ⟨2, 4⟩] := Option.some.inj (cut.symm.trans two)
  refine ⟨rfl, by decide, by decide, found.trans five, columns, ⟨table, same, closed⟩,
    across.parts 1 (by decide), divided, count, ?_⟩
  obtain rfl : divided = ⟨3, 2, 2⟩ := Option.some.inj (count.symm.trans rfl)
  exact ⟨delimited 0 (by decide), delimited 1 (by decide)⟩

/-- Both rows are far below the bound, but the product of the last destination is no word. -/
theorem kernels_in_words_longRow :
    checkChannels 1 = .ok () ∧ (View.brightColumn longRow_packs 0).data.size ≤ 2 ^ 47 ∧
    (View.brightColumn shortRow_packs 0).data.size ≤ 2 ^ 47 ∧
    ¬Resampling.nearest.InWords (View.brightColumn longRow_packs 0).extent
      (View.brightColumn shortRow_packs 0).extent ∧
    Word.product? (2 ^ 28) (2 ^ 36) = none := by
  refine ⟨rfl, ?_, ?_, ?_, by decide⟩
  · rw [View.brightColumn, View.size_packed]
    decide
  · rw [View.brightColumn, View.size_packed]
    decide
  · -- The sizes of the two rows multiply to the limit.
    rintro ⟨-, columns⟩
    exact absurd (Nearest.inWords_iff.mp columns) (by decide)

end Raster
