import Mathlib.Data.List.Nodup
import Mathlib.Data.List.ProdSigma
import Raster.Proofs.Resize.Written

/-!
The plan of an area resize and the blocks that it averages.  Main statement: `plan?_partitions`, the
plan follows from growth and divisibility alone, and where blocks are planned they partition the
source: every pixel of it is read once, by the destination that its block belongs to.
-/

namespace Raster

/-- The pixels of an extent, row after row. -/
def Extent.pixels (extent : Extent) : List (Nat × Nat) :=
  List.range extent.height ×ˢ List.range extent.width

/-- The pixels of an extent lie in its rows and columns. -/
theorem Extent.mem_pixels {extent : Extent} {place : Nat × Nat} :
    place ∈ extent.pixels ↔ place.1 < extent.height ∧ place.2 < extent.width := by
  rw [pixels, List.mem_product, List.mem_range, List.mem_range]

/-- An extent does not list a pixel twice. -/
theorem Extent.nodup_pixels (extent : Extent) : extent.pixels.Nodup :=
  List.nodup_range.product List.nodup_range

namespace Area

variable {source target : Extent} {across down : Nat}

/-- An image is grown into exactly the extents that are larger on some axis. -/
theorem plan_eq_growth_iff : plan source target = .growth ↔
    source.width < target.width ∨ source.height < target.height := by
  -- Only the first question of the plan is about growing.
  unfold plan
  split_ifs with grows <;> simp [grows]

/-- Overlaps are weighted exactly where no axis grows and the sizes do not divide on some axis. -/
theorem plan_eq_overlaps_iff : plan source target = .overlaps ↔
    (target.width ≤ source.width ∧ target.height ≤ source.height) ∧
      -- An extent that does not grow is planned by divisibility alone.
      ¬(target.width ∣ source.width ∧ target.height ∣ source.height) := by
  rw [← not_lt, ← not_lt, ← not_or]
  unfold plan
  split_ifs with grows divides
  · simp [grows]
  · simp [grows, divides]
  · simp [grows, divides]

/-- Blocks are averaged exactly where no axis grows and the sizes divide on both axes. -/
theorem exists_plan_eq_blocks_iff : (∃ across down, plan source target = .blocks across down) ↔
    (target.width ≤ source.width ∧ target.height ≤ source.height) ∧
      target.width ∣ source.width ∧ target.height ∣ source.height := by
  -- The other two plans are excluded by what is asked first.
  rw [← not_lt, ← not_lt, ← not_or]
  unfold plan
  split_ifs with grows divides
  · simp [grows]
  · simp [grows, divides]
  · simp [grows, divides]

namespace Blocks

/-- A block holds the pixels whose row and column, divided by the factors, are its destination. -/
theorem mem_positions_iff (tall : 0 < down) (wide : 0 < across) {y x : Nat} {place : Nat × Nat} :
    place ∈ positions across down y x ↔ place.1 / down = y ∧ place.2 / across = x := by
  -- A position is listed by its row in the block and its column in it.
  have listed : positions across down y x =
    List.range' (y * down) down ×ˢ List.range' (x * across) across := rfl
  rw [listed, List.mem_product, List.mem_range'_1, List.mem_range'_1, Nat.div_eq_iff tall,
    Nat.div_eq_iff wide]
  grind

/-- A block does not name a pixel twice. -/
theorem nodup_positions (across down y x : Nat) : (positions across down y x).Nodup :=
  List.Nodup.product List.nodup_range' List.nodup_range'

/-- The blocks of the destinations partition the source. -/
structure Tiles (across down : Nat) (source target : Extent) : Prop where
  /-- Every pixel of the source belongs to a destination. -/
  owned : ∀ row column, row < source.height → column < source.width →
    row / down < target.height ∧ column / across < target.width
  /-- A destination reads the pixels that belong to it, each of them once. -/
  once : ∀ y x, y < target.height → x < target.width → ∀ row column,
    (positions across down y x).count (row, column) =
      if row / down = y ∧ column / across = x then 1 else 0
  /-- No destination reads outside the source. -/
  inside : ∀ y x, y < target.height → x < target.width → ∀ place ∈ positions across down y x,
    place.1 < source.height ∧ place.2 < source.width
  /-- What all destinations read together is the source, pixel by pixel. -/
  whole : (target.pixels.flatMap fun pixel => positions across down pixel.1 pixel.2).Perm
    source.pixels

/-- Blocks that fill both axes partition the source. -/
theorem tiles_of_factors (tall : 0 < down) (wide : 0 < across)
    (rows : source.height = target.height * down) (columns : source.width = target.width * across) :
    Tiles across down source target := by
  have owned : ∀ place : Nat × Nat, place.1 / down < target.height ∧
      place.2 / across < target.width ↔ place.1 < source.height ∧ place.2 < source.width := by
    intro place
    rw [rows, columns, Nat.div_lt_iff_lt_mul tall, Nat.div_lt_iff_lt_mul wide]
  refine ⟨fun row column inRows inColumns => (owned (row, column)).mpr ⟨inRows, inColumns⟩, ?_, ?_,
    ?_⟩
  · intro y x _ _ row column
    rw [(nodup_positions across down y x).count]
    exact if_congr (mem_positions_iff tall wide) rfl rfl
  · intro y x inImage inRow place member
    obtain ⟨rfl, rfl⟩ := (mem_positions_iff tall wide).mp member
    exact (owned place).mp ⟨inImage, inRow⟩
  -- Neither list repeats a pixel, and both hold those of the source.
  · refine (List.perm_ext_iff_of_nodup ?_ source.nodup_pixels).mpr fun place => ?_
    · refine List.nodup_flatMap.mpr ⟨fun pixel _ => nodup_positions _ _ _ _, ?_⟩
      refine target.nodup_pixels.imp fun different place first second => different ?_
      obtain ⟨row, column⟩ := (mem_positions_iff tall wide).mp first
      obtain ⟨row', column'⟩ := (mem_positions_iff tall wide).mp second
      exact Prod.ext (row.symm.trans row') (column.symm.trans column')
    · rw [List.mem_flatMap, Extent.mem_pixels, ← owned place]
      constructor
      · rintro ⟨pixel, member, read⟩
        obtain ⟨row, column⟩ := (mem_positions_iff tall wide).mp read
        rw [row, column]
        exact Extent.mem_pixels.mp member
      · intro belongs
        exact ⟨(place.1 / down, place.2 / across), Extent.mem_pixels.mpr belongs,
          (mem_positions_iff tall wide).mpr ⟨rfl, rfl⟩⟩

end Blocks

/-- Where blocks are planned they partition the source. -/
theorem tiles_of_plan_eq (tall : 0 < target.height) (wide : 0 < target.width)
    (blocks : plan source target = .blocks across down) :
    Blocks.Tiles across down source target := by
  -- No axis grows, so the source has rows and columns, and neither factor is zero.
  obtain ⟨⟨columns, rows⟩, -⟩ := exists_plan_eq_blocks_iff.mp ⟨across, down, blocks⟩
  obtain ⟨height, width⟩ := tiles_of_plan blocks
  refine Blocks.tiles_of_factors ?_ ?_ height width
  · exact Nat.pos_of_mul_pos_left (height ▸ tall.trans_le rows)
  · exact Nat.pos_of_mul_pos_left (width ▸ wide.trans_le columns)

/-- Between extents that have rows and columns, an area resize grows exactly where some axis grows,
averages blocks exactly where none does and the sizes divide on both axes, and weights overlaps
exactly in the cases left.  The factors of blocks take the sizes of the target to those of the
source, the blocks partition the source, and every destination is the mean of its block. -/
theorem plan?_partitions (tall : 0 < target.height) (wide : 0 < target.width) :
    (plan? source target = some .growth ↔
      source.width < target.width ∨ source.height < target.height) ∧
    ((∃ across down, plan? source target = some (.blocks across down)) ↔
      (target.width ≤ source.width ∧ target.height ≤ source.height) ∧
        target.width ∣ source.width ∧ target.height ∣ source.height) ∧
    (plan? source target = some .overlaps ↔
      (target.width ≤ source.width ∧ target.height ≤ source.height) ∧
        ¬(target.width ∣ source.width ∧ target.height ∣ source.height)) ∧
    ∀ across down, plan? source target = some (.blocks across down) →
      across * target.width = source.width ∧ down * target.height = source.height ∧
      Blocks.Tiles across down source target ∧
      ∀ (depth : Depth) {channels : Nat} {image onto : View depth.Sample channels}
        {sample : Nat → Nat → Nat → depth.Sample}, checkChannels channels = .ok () →
        image.extent = source → onto.extent = target → image.Shows sample →
        ∃ written, resize .area image onto = .ok (some written) ∧ written.layout = onto.layout ∧
          written.Shows fun y x c => Element.ofSingle (Blocks.mean across down
            ((Blocks.positions across down y x).map fun place => sample place.1 place.2 c)) := by
  -- With positive sides the plan is not a fault.
  simp only [plan?_eq_plan tall wide, Option.some.injEq]
  refine ⟨plan_eq_growth_iff, exists_plan_eq_blocks_iff, plan_eq_overlaps_iff, ?_⟩
  intro across down blocks
  obtain ⟨height, width⟩ := tiles_of_plan blocks
  refine ⟨by rw [Nat.mul_comm, width], by rw [Nat.mul_comm, height],
    tiles_of_plan_eq tall wide blocks, ?_⟩
  rintro depth channels image onto sample accepted rfl rfl shows
  exact exists_resize_blocks accepted (by rw [plan?_eq_plan tall wide, blocks]) shows

/-- Two rows of six pixels become one row of two, and the second of them is given the pixels of the
last three columns. -/
theorem plan?_partitions_sixColumns : 0 < 1 ∧ 0 < 2 ∧
    plan? ⟨2, 6⟩ ⟨1, 2⟩ = some (.blocks 3 2) ∧ Blocks.Tiles 3 2 ⟨2, 6⟩ ⟨1, 2⟩ ∧
    Blocks.positions 3 2 0 1 = [(0, 3), (0, 4), (0, 5), (1, 3), (1, 4), (1, 5)] := by
  -- Six columns in two rows are two blocks, of which the second is listed.
  obtain ⟨-, -, -, blocks⟩ := @plan?_partitions ⟨2, 6⟩ ⟨1, 2⟩ (by decide) (by decide)
  obtain ⟨-, -, tiles, -⟩ := blocks 3 2 rfl
  exact ⟨by decide, by decide, rfl, tiles, rfl⟩

end Area

end Raster
