import Raster.Proofs.Grid
import Raster.Resize.Area.Growth
import Raster.Resize.Linear
import Raster.Resize.Nearest.Word

/-!
Resizing through tables of source indices.  Main statements: `Nearest.exists_resize?`,
`Linear.exists_resize?` and `Area.Growth.exists_resize?`, every index of a table lies on the source
axis, so each of these resizings gives the image that its tables describe.
-/

namespace Raster

variable {α S D : Type} [Scalar S] [Wide D S] [Element α S D] {channels : Nat}
variable {image : Grid α channels} {sample : Nat → Nat → Nat → α}
variable {sourceSize targetSize d : Nat}

/-- A table over an axis holds, at every place of it, the entry of that place. -/
theorem getElem?_table {β : Type} (entry : Nat → β) (inside : d < targetSize) :
    ((List.range targetSize).map entry).toArray[d]? = some (entry d) := by
  simp [inside]

namespace Nearest

/-- A destination's source index lies on the source axis. -/
theorem source_lt (positive : 0 < sourceSize) (inside : d < targetSize) :
    source sourceSize targetSize d < sourceSize := by
  -- The scaled position does, and what words lose of it only takes the index further down.
  refine Nat.lt_of_le_of_lt (source_le sourceSize targetSize d) ?_
  rw [Nat.div_lt_iff_lt_mul (by omega), Nat.mul_comm]
  exact Nat.mul_lt_mul_of_pos_left inside positive

/-- Copying never faults and copies each pixel from its source index on either axis. -/
theorem exists_resize? (shows : image.Shows sample) (tall : 0 < image.height)
    (wide : 0 < image.width) (target : Extent) :
    ∃ resized, resize? image target = some resized ∧
      resized.height = target.height ∧ resized.width = target.width ∧
      resized.Shows fun y x c => sample (source image.height target.height y)
        (source image.width target.width x) c := by
  -- Each pixel is found by its row and its column in two tables.
  dsimp only [resize?]
  refine Grid.exists_tabulate?_shows fun y x c inImage inRow inPixel => ?_
  simp only [table, getElem?_table _ inImage, getElem?_table _ inRow, Option.bind_eq_bind,
    Option.bind_some]
  exact shows _ _ c (source_lt tall inImage) (source_lt wide inRow) inPixel

end Nearest

namespace Tap

/-- Both samples of the tap lie on an axis of `size` samples. -/
def Inside (tap : Tap S) (size : Nat) : Prop := tap.low < size ∧ tap.high < size

/-- The sample that a row tap and a column tap give for one channel of an image. -/
def value (sample : Nat → Nat → Nat → α) (row column : Tap S) (c : Nat) : α :=
  -- The first index is the row of the sample, the second its column.
  Element.ofSingle (blend row.weight column.weight
    (sample row.low column.low c) (sample row.low column.high c)
    (sample row.high column.low c) (sample row.high column.high c))

/-- In exact arithmetic the shares of a mixture add up to one. -/
theorem mix_rat (weight low high : Rat) :
    mix weight low high = low * (1 - weight) + high * weight := rfl

omit [Wide D S] in
/-- Blending through taps that lie inside the image never faults. -/
theorem exists_resize? (shows : image.Shows sample) {rows columns : Nat → Tap S}
    {target : Extent}
    (inHeight : ∀ y, y < target.height → (rows y).Inside image.height)
    (inWidth : ∀ x, x < target.width → (columns x).Inside image.width) :
    ∃ resized, resize? image ((List.range target.height).map rows).toArray
        ((List.range target.width).map columns).toArray target = some resized ∧
      resized.height = target.height ∧ resized.width = target.width ∧
      resized.Shows fun y x c => value sample (rows y) (columns x) c := by
  -- Four samples are read, and all of them lie on the source.
  refine Grid.exists_tabulate?_shows fun y x c inImage inRow inPixel => ?_
  obtain ⟨rowLow, rowHigh⟩ := inHeight y inImage
  obtain ⟨columnLow, columnHigh⟩ := inWidth x inRow
  simp only [getElem?_table _ inImage, getElem?_table _ inRow, Option.bind_eq_bind,
    Option.bind_some, sample?, shows _ _ c rowLow columnLow inPixel,
    shows _ _ c rowLow columnHigh inPixel, shows _ _ c rowHigh columnLow inPixel,
    shows _ _ c rowHigh columnHigh inPixel, value]

end Tap

namespace Linear

/-- The taps of a destination are folded onto the source axis. -/
theorem tap_inside (positive : 0 < sourceSize) :
    (tap D sourceSize targetSize d).Inside sourceSize :=
  ⟨Border.fold_lt _ positive _, Border.fold_lt _ positive _⟩

/-- Bilinear resizing never faults and blends each pixel through its taps on either axis. -/
theorem exists_resize? (shows : image.Shows sample) (tall : 0 < image.height)
    (wide : 0 < image.width) (target : Extent) :
    ∃ resized, resize? image target = some resized ∧
      resized.height = target.height ∧ resized.width = target.width ∧
      resized.Shows fun y x c => Tap.value sample (tap D image.height target.height y)
        (tap D image.width target.width x) c :=
  Tap.exists_resize? shows (fun _ _ => tap_inside tall) fun _ _ => tap_inside wide

end Linear

namespace Area.Growth

open Scalar (lt ofNat zero)

/-- The taps of destination `d` on a source axis that has samples. -/
def tap (D : Type) {S : Type} [Scalar S] [Wide D S] (sourceSize targetSize d : Nat) : Tap S :=
  -- The scale and its inverse are rounded separately, so a position may fall short of a whole
  -- number.
  let scale : D := ofNat sourceSize / ofNat targetSize
  let inverse : D := ofNat targetSize / ofNat sourceSize
  let sample := Wide.toIndex (Scalar.floor (ofNat d * scale))
  let reach : S := Wide.narrow (ofNat (d + 1) - ofNat (sample + 1) * inverse)
  let weight := if lt zero reach then reach - Scalar.floor reach else zero
  if sourceSize - 1 ≤ sample then ⟨sourceSize - 1, sourceSize - 1, zero⟩
  else ⟨sample, sample + 1, weight⟩

/-- On a source axis that has samples every destination has taps. -/
theorem tap?_eq_tap (positive : 0 < sourceSize) :
    tap? D sourceSize targetSize d = some (tap D sourceSize targetSize d) := by
  -- An axis with a sample has a last one.
  have last : less? sourceSize 1 = some (sourceSize - 1) := if_pos positive
  simp only [tap?, last, Option.bind_eq_bind, Option.bind_some, tap]
  split <;> rfl

/-- The table of taps of a source axis that has samples can be computed. -/
theorem table?_eq_table (positive : 0 < sourceSize) :
    table? D sourceSize targetSize =
      some ((List.range targetSize).map (tap D sourceSize targetSize)).toArray := by
  -- No tap of the table is a fault.
  rw [table?, gather?_of_forall fun d _ => tap?_eq_tap positive]
  rfl

/-- The second sample of a tap is the one after the first, and both lie on the source axis. -/
theorem tap_inside (positive : 0 < sourceSize) :
    (tap D sourceSize targetSize d).Inside sourceSize := by
  unfold tap
  dsimp only
  -- At the end of the axis both samples are the last one.
  split
  · exact ⟨Nat.sub_one_lt_of_lt positive, Nat.sub_one_lt_of_lt positive⟩
  · rename_i before
    exact ⟨by dsimp only; omega, by dsimp only; omega⟩

/-- Resizing a growing image by area never faults and blends each pixel through its taps. -/
theorem exists_resize? (shows : image.Shows sample) (tall : 0 < image.height)
    (wide : 0 < image.width) (target : Extent) :
    ∃ resized, resize? image target = some resized ∧
      resized.height = target.height ∧ resized.width = target.width ∧
      resized.Shows fun y x c => Tap.value sample (tap D image.height target.height y)
        (tap D image.width target.width x) c := by
  -- The tables of both axes are formed, and their taps lie on the source.
  simp only [resize?, table?_eq_table tall, table?_eq_table wide, Option.bind_eq_bind,
    Option.bind_some]
  exact Tap.exists_resize? shows (fun _ _ => tap_inside tall) fun _ _ => tap_inside wide

end Area.Growth

end Raster
