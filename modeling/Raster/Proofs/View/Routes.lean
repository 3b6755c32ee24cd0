import Raster.Proofs.View

/-!
The routes by which samples are read from a view: whole rows, single pixels, and the loading of all
visible samples.  Main statements: `row?_of_load?`, a row of the buffer is that of the loaded image,
and `SameImage.load?_eq`, `SameImage.row?_eq` and `SameImage.pixel?_eq`, no route tells two views of
one image apart.
-/

namespace Raster.View

variable {α : Type} {channels : Nat}

/-- Both views have one extent and the same visible samples; all else may differ. -/
structure SameImage (view other : View α channels) : Prop where
  -- Strides, padding and spare samples are not mentioned.
  extent : view.extent = other.extent
  samples : ∀ y x c, y < view.layout.height → x < view.layout.width → c < channels →
    view.sample? y x c = other.sample? y x c

/-- A place in a row belongs to a pixel of the row and a channel of the pixel. -/
theorem parts_of_place {width k : Nat} (inRow : k < width * channels) :
    k / channels < width ∧ k % channels < channels := by
  -- A row that has a place has pixels with samples.
  have channelsPos : 0 < channels := by
    apply Nat.pos_of_ne_zero
    rintro rfl
    simp at inRow
  exact ⟨(Nat.div_lt_iff_lt_mul channelsPos).mpr inRow, Nat.mod_lt _ channelsPos⟩

/-- A row of the image can be sliced; its places hold the channels of its pixels in order. -/
theorem exists_row? (view : View α channels) {y : Nat} (inImage : y < view.layout.height) :
    ∃ row, view.row? y = some row ∧ row.size = view.layout.rowLength channels ∧
      ∀ k, k < view.layout.rowLength channels →
        row[k]? = view.sample? y (k / channels) (k % channels) := by
  -- The row ends inside the buffer, and its places are cut into pixels.
  have held := view.fits.row_le inImage
  refine ⟨_, slice?_eq_some_iff.mpr ⟨held, rfl⟩, ?_, ?_⟩
  · rw [Array.size_extract]
    omega
  · intro k inRow
    obtain ⟨inWidth, inPixel⟩ := parts_of_place inRow
    rw [view.sample?_eq inWidth inPixel, Nat.mul_comm, Nat.div_add_mod, Array.getElem?_extract,
      if_pos (by omega)]

/-- A pixel of the image can be sliced; its places hold its channels in order. -/
theorem exists_pixel? (view : View α channels) {y x : Nat} (inImage : y < view.layout.height)
    (inRow : x < view.layout.width) :
    ∃ pixel, view.pixel? y x = some pixel ∧ pixel.size = channels ∧
      ∀ c, c < channels → pixel[c]? = view.sample? y x c := by
  -- The pixel ends with its row at the latest, and the row ends inside the buffer.
  have row := view.fits.row_le inImage
  have pixels := Nat.mul_le_mul_right channels (Nat.succ_le_of_lt inRow)
  rw [Nat.succ_mul] at pixels
  have held : view.layout.pixelStart channels y x + channels ≤ view.data.size := by
    simp only [Layout.pixelStart, Layout.rowLength] at row ⊢
    omega
  refine ⟨_, slice?_eq_some_iff.mpr ⟨held, rfl⟩, ?_, ?_⟩
  · rw [Array.size_extract]
    omega
  · intro c inPixel
    rw [sample?, if_pos ⟨inRow, inPixel⟩, Array.getElem?_extract, if_pos (by omega)]

/-- A row slice of the buffer is the row of the loaded image. -/
theorem row?_of_load? {view : View α channels} {image : Grid α channels}
    (loaded : view.load? = some image) {y : Nat} (inImage : y < view.layout.height) :
    (view.row? y).map Array.toList = image.row? y := by
  -- Both list the same samples of the same row, one place after another.
  obtain ⟨other, again, height, width, same⟩ := view.exists_load?
  rw [loaded, Option.some.injEq] at again
  subst again
  obtain ⟨row, sliced, size, places⟩ := view.exists_row? inImage
  obtain ⟨values, read, length, entries⟩ := image.exists_row? (y := y) (by omega)
  rw [width] at length entries
  rw [sliced, read, Option.map_some, Option.some.injEq]
  apply List.ext_getElem?
  intro k
  by_cases inRow : k < view.layout.width * channels
  · obtain ⟨inWidth, inPixel⟩ := parts_of_place inRow
    rw [Array.getElem?_toList, places k inRow, entries k inRow, same y _ _ inImage inWidth inPixel]
  · rw [List.getElem?_eq_none (by rw [Array.length_toList, size]; exact Nat.not_lt.mp inRow),
      List.getElem?_eq_none (by omega)]

namespace SameImage

variable {view other : View α channels}

/-- Views of one image have as many rows. -/
theorem height_eq (same : view.SameImage other) : view.layout.height = other.layout.height :=
  congrArg Extent.height same.extent

/-- Views of one image have as many pixels to a row. -/
theorem width_eq (same : view.SameImage other) : view.layout.width = other.layout.width :=
  congrArg Extent.width same.extent

/-- Views of one image load the same image. -/
theorem load?_eq (same : view.SameImage other) : view.load? = other.load? :=
  load?_congr same.extent same.samples

/-- Views of one image have the same row slices. -/
theorem row?_eq (same : view.SameImage other) {y : Nat} (inImage : y < view.layout.height) :
    view.row? y = other.row? y := by
  -- The places of both slices hold the visible samples of the row.
  obtain ⟨row, sliced, size, places⟩ := view.exists_row? inImage
  obtain ⟨again, cut, length, entries⟩ :=
    other.exists_row? (y := y) (by rw [← same.height_eq]; exact inImage)
  simp only [Layout.rowLength, ← same.width_eq] at size places length entries
  rw [sliced, cut, Option.some.injEq]
  apply Array.ext_getElem?
  intro k
  by_cases inRow : k < view.layout.width * channels
  · obtain ⟨inWidth, inPixel⟩ := parts_of_place inRow
    rw [places k inRow, entries k inRow, same.samples y _ _ inImage inWidth inPixel]
  · rw [Array.getElem?_eq_none (by omega), Array.getElem?_eq_none (by omega)]

/-- Views of one image have the same pixel slices. -/
theorem pixel?_eq (same : view.SameImage other) {y x : Nat} (inImage : y < view.layout.height)
    (inRow : x < view.layout.width) : view.pixel? y x = other.pixel? y x := by
  -- Both pixels are slices of as many samples as there are channels.
  obtain ⟨pixel, sliced, size, places⟩ := view.exists_pixel? inImage inRow
  obtain ⟨again, cut, length, entries⟩ := other.exists_pixel? (y := y) (x := x)
    (by rw [← same.height_eq]; exact inImage) (by rw [← same.width_eq]; exact inRow)
  rw [sliced, cut, Option.some.injEq]
  apply Array.ext_getElem?
  intro c
  by_cases inPixel : c < channels
  · rw [places c inPixel, entries c inPixel, same.samples y x c inImage inRow inPixel]
  · rw [Array.getElem?_eq_none (by omega), Array.getElem?_eq_none (by omega)]

end SameImage

end Raster.View
