import Raster.Resize.Area.Blocks
import Raster.Resize.Area.Growth
import Raster.Resize.Area.Overlaps
import Raster.Resize.Area.Plan
import Raster.Resize.Linear
import Raster.Resize.Nearest
import Raster.View

/-! Resizing an image to the extent of its destination. -/

namespace Raster

variable {α S D : Type} [Scalar S] [Wide D S] [Element α S D] {channels : Nat}

/-- The image of extent `target` that averages areas of `image`, by the plan for the two extents. -/
def Area.resize? (image : Grid α channels) (target : Extent) : Option (Grid α channels) := do
  -- The extents alone decide which path is taken.
  match ← Area.plan? ⟨image.height, image.width⟩ target with
  | .blocks across down => Blocks.resize? image across down target
  | .overlaps => Overlaps.resize? image target
  | .growth => Growth.resize? image target

/-- How destination samples are formed from source samples. -/
inductive Resampling where
  | nearest
  | linear
  | area
  deriving DecidableEq, Repr

namespace Resampling

/-- The mode used when none is named. -/
def standard : Resampling := .linear

/-- The image of extent `target` formed from `image`. -/
def resize? (mode : Resampling) (image : Grid α channels) (target : Extent) :
    Option (Grid α channels) :=
  match mode with
  | .nearest => Nearest.resize? image target
  | .linear => Linear.resize? image target
  | .area => Area.resize? image target

end Resampling

/-- Resizes the visible samples of one view onto those of another. -/
def resize (mode : Resampling) (source target : View α channels) :
    Except Refusal (Option (View α channels)) := do
  checkChannels channels
  return do
    let image ← source.load?
    -- The whole image is resized before any row of the target is written.
    let resized ← mode.resize? image target.extent
    target.store? resized

end Raster
