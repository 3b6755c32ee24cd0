import Raster.Proofs.Grid
import Raster.Resize.Area.Blocks
import Raster.Resize.Area.Plan

/-!
Area averaging by whole factors, as a function of the samples it reads.  Main statements:
`tiles_of_plan`, blocks are averaged only where they tile the source, and `Blocks.exists_resize?`,
averaging them never faults and gives block means.
-/

namespace Raster.Area

variable {α S D : Type} [Scalar S] [Wide D S] [Element α S D] {channels : Nat}

/-- Whether a positive size divides another can always be told. -/
theorem divides?_of_pos {sourceSize targetSize : Nat} (positive : 0 < targetSize) :
    divides? sourceSize targetSize = some (decide (targetSize ∣ sourceSize)) := by
  simp only [divides?, if_neg (Nat.pos_iff_ne_zero.mp positive), Nat.dvd_iff_mod_eq_zero]

/-- The plan for averaging onto an extent that has rows and columns. -/
def plan (source target : Extent) : Plan :=
  -- Growth on either axis decides, whatever the other does.
  if source.width < target.width ∨ source.height < target.height then .growth
  else if target.width ∣ source.width ∧ target.height ∣ source.height then
    .blocks (source.width / target.width) (source.height / target.height)
  else .overlaps

/-- There is a plan for every extent that has rows and columns. -/
theorem plan?_eq_plan {source target : Extent} (tall : 0 < target.height)
    (wide : 0 < target.width) : plan? source target = some (plan source target) := by
  -- Both remainders are by positive sizes.
  simp only [plan?, divides?_of_pos tall, divides?_of_pos wide, Option.bind_eq_bind,
    Option.bind_some, decide_eq_true_eq, plan]
  split
  · rfl
  · by_cases columns : target.width ∣ source.width <;>
      by_cases rows : target.height ∣ source.height <;> simp [columns, rows]

/-- Where blocks are averaged they tile the source. -/
theorem tiles_of_plan {source target : Extent} {across down : Nat}
    (blocks : plan source target = .blocks across down) :
    source.height = target.height * down ∧ source.width = target.width * across := by
  -- Blocks are planned only where both sizes divide.
  unfold plan at blocks
  split at blocks
  · cases blocks
  · split at blocks
    · rename_i divide
      cases blocks
      exact ⟨(Nat.mul_div_cancel' divide.2).symm, (Nat.mul_div_cancel' divide.1).symm⟩
    · cases blocks

/-- Blocks that tile the source are averaged. -/
theorem plan_of_tiles {source target : Extent} {across down : Nat} (tall : 0 < target.height)
    (wide : 0 < target.width) (rows : source.height = target.height * down)
    (columns : source.width = target.width * across) (positive : 0 < down ∧ 0 < across) :
    plan source target = .blocks across down := by
  -- No axis grows, and the quotients are the factors.
  have high := Nat.le_mul_of_pos_right target.height positive.1
  have long := Nat.le_mul_of_pos_right target.width positive.2
  rw [plan, rows, columns, if_neg (by omega),
    if_pos ⟨Nat.dvd_mul_right _ _, Nat.dvd_mul_right _ _⟩, Nat.mul_div_cancel_left _ wide,
    Nat.mul_div_cancel_left _ tall]

namespace Blocks

variable {image : Grid α channels} {sample : Nat → Nat → Nat → α} {across down : Nat}

/-- The pixels of a block lie in the image that its blocks tile. -/
theorem mem_positions {target : Extent} {y x : Nat} (inImage : y < target.height)
    (inRow : x < target.width) {place : Nat × Nat} (member : place ∈ positions across down y x) :
    place.1 < target.height * down ∧ place.2 < target.width * across := by
  simp only [positions, List.mem_flatMap, List.mem_map, List.mem_range'_1] at member
  obtain ⟨row, rowRange, column, columnRange, rfl⟩ := member
  -- The last sample of a block lies before the next block, and that one before the image's end.
  have rows := Nat.mul_le_mul_right down (Nat.succ_le_of_lt inImage)
  have columns := Nat.mul_le_mul_right across (Nat.succ_le_of_lt inRow)
  rw [Nat.succ_mul] at rows columns
  exact ⟨by dsimp only; omega, by dsimp only; omega⟩

/-- The samples of one channel in the block of destination `(y, x)`. -/
def block (sample : Nat → Nat → α) (across down y x : Nat) : List α :=
  (positions across down y x).map fun place => sample place.1 place.2

omit [Wide D S] in
/-- Averaging an image that blocks tile never faults and stores the mean of every block. -/
theorem exists_resize? (shows : image.Shows sample) (target : Extent)
    (rows : image.height = target.height * down) (columns : image.width = target.width * across) :
    ∃ resized, resize? image across down target = some resized ∧
      resized.height = target.height ∧ resized.width = target.width ∧
      resized.Shows fun y x c => Element.ofSingle
        (mean across down (block (fun row column => sample row column c) across down y x)) := by
  -- The positions of every block lie in the image.
  refine Grid.exists_tabulate?_shows fun y x c inImage inRow inPixel => ?_
  have gathered : gather? (fun place : Nat × Nat => image.at? place.1 place.2 c)
      (positions across down y x) =
      some (block (fun row column => sample row column c) across down y x) :=
    gather?_of_forall fun place member => by
      obtain ⟨inHeight, inWidth⟩ := mem_positions inImage inRow member
      exact shows _ _ c (rows ▸ inHeight) (columns ▸ inWidth) inPixel
  simp only [gathered, Option.bind_eq_bind, Option.bind_some]

end Blocks

end Raster.Area
