import Raster.Grid
import Raster.Refusal
import Raster.Word

/-! Nearest-neighbour resizing: every destination pixel is a copy of one source pixel. -/

namespace Raster.Nearest

/-- The source index of destination `d`: its scaled position, rounded down. -/
def source (sourceSize targetSize d : Nat) : Nat :=
  -- The position is scaled in words, so a product that is no word has lost its highest digits.
  Word.wrap (d * sourceSize) / targetSize

/-- The source indices of a whole axis. -/
def table (sourceSize targetSize : Nat) : Array Nat :=
  ((List.range targetSize).map (source sourceSize targetSize)).toArray

/-- The image of extent `target` that copies its pixels from `image`. -/
def resize? {α : Type} {channels : Nat} (image : Grid α channels) (target : Extent) :
    Option (Grid α channels) :=
  let rows := table image.height target.height
  let columns := table image.width target.width
  Grid.tabulate? target.height target.width fun y x c => do
    let sourceRow ← rows[y]?
    let sourceColumn ← columns[x]?
    image.at? sourceRow sourceColumn c

end Raster.Nearest
