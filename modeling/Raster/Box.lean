import Raster.Box.Sums
import Raster.View

/-! Box filtering an image onto a destination of the same extent. -/

namespace Raster

variable {α S D : Type} [Scalar S] [Wide D S] [Element α S D] {channels : Nat}

/-- Filters the visible samples of one view onto those of another of the same extent. -/
def boxFilter (window : BoxWindow) (source target : View α channels) :
    Except Refusal (Option (View α channels)) := do
  checkChannels channels
  checkExtent source.extent target.extent
  return do
    -- Past the checks no refusal is possible.
    let image ← source.load?
    let filtered ← window.filter? image
    target.store? filtered

end Raster
