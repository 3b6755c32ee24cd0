import Raster.Element
import Raster.Grid
import Raster.Refusal

/-! Area averaging by whole factors: each destination sample is the mean of one block. -/

namespace Raster.Area.Blocks

open Scalar (ofNat one zero)

variable {α S D : Type} [Scalar S] [Wide D S] [Element α S D] {channels : Nat}

/-- The source pixels of the block of destination `(y, x)`, row after row. -/
def positions (across down y x : Nat) : List (Nat × Nat) :=
  (List.range' (y * down) down).flatMap fun row =>
    (List.range' (x * across) across).map fun column => (row, column)

/-- The mean of a block: its sum in order, times the reciprocal of its size. -/
def mean (across down : Nat) (block : List α) : S :=
  let inverse : S := one / ofNat (across * down)
  block.foldl (fun sum value => sum + Element.toSingle value) zero * inverse

/-- The image of extent `target` whose samples are block means of `image`. -/
def resize? (image : Grid α channels) (across down : Nat) (target : Extent) :
    Option (Grid α channels) :=
  Grid.tabulate? target.height target.width fun y x c => do
    -- Every block is full: the extents divide.
    let block ← gather? (fun place => image.at? place.1 place.2 c) (positions across down y x)
    some (Element.ofSingle (mean across down block))

end Raster.Area.Blocks
