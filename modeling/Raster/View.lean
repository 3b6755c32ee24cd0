import Raster.Grid
import Raster.Layout

/-!
Views: an accepted layout over a buffer, its rows and pixels, and the exchange of its visible
samples with packed images.
-/

namespace Raster

/-- The `count` elements from `start`, a fault when they are not all there. -/
def slice? {α : Type} (data : Array α) (start count : Nat) : Option (Array α) :=
  if start + count ≤ data.size then some (data.extract start (start + count)) else none

/-- A buffer seen as an image of pixels with `channels` samples each. -/
structure View (α : Type) (channels : Nat) where
  layout : Layout
  data : Array α
  fits : layout.Fits channels data.size

namespace View

variable {α : Type} {channels : Nat}

/-- The view of a buffer through a layout, refused when the buffer does not hold it. -/
def make (channels : Nat) (layout : Layout) (data : Array α) : Except Refusal (View α channels) :=
  -- The check that accepts is the evidence that the layout fits.
  match accepted : layout.check channels data.size with
  | .error refusal => .error refusal
  | .ok () => .ok ⟨layout, data, Layout.check_eq_ok_iff.mp accepted⟩

/-- Height and width. -/
def extent (view : View α channels) : Extent := view.layout.extent

/-- The visible samples of row `y`; only the end of the buffer limits `y`. -/
def row? (view : View α channels) (y : Nat) : Option (Array α) :=
  slice? view.data (view.layout.rowStart y) (view.layout.rowLength channels)

/-- The samples of pixel `x` of row `y`; only the end of the buffer limits `y` and `x`. -/
def pixel? (view : View α channels) (y x : Nat) : Option (Array α) :=
  slice? view.data (view.layout.pixelStart channels y x) channels

/-- The sample of channel `c` at pixel `x` of row `y`, a fault past the end of a row. -/
def sample? (view : View α channels) (y x c : Nat) : Option α :=
  -- The place alone does not tell a sample of the row from the gap behind it.
  if x < view.layout.width ∧ c < channels then
    view.data[view.layout.pixelStart channels y x + c]?
  else none

/-- Writes values over row `y` from its start, as far as both reach. -/
def setRow? (view : View α channels) (y : Nat) (values : List α) : Option (View α channels) :=
  let start := view.layout.rowStart y
  let length := view.layout.rowLength channels
  if start + length ≤ view.data.size then
    let fresh := values.toArray
    some { view with
      data := view.data.mapIdx fun i old =>
        -- Everything outside the row keeps its value.
        if start ≤ i ∧ i < start + length then fresh.getD (i - start) old else old
      fits := by simpa using view.fits }
  else none

/-- The visible samples as a packed image. -/
def load? (view : View α channels) : Option (Grid α channels) :=
  Grid.tabulate? view.layout.height view.layout.width view.sample?

/-- Writes a packed image over the visible samples, row by row. -/
def store? (view : View α channels) (image : Grid α channels) : Option (View α channels) :=
  (List.range view.layout.height).foldlM
    (fun written y => (image.row? y).bind (written.setRow? y)) view

end View

end Raster
