import Raster.Proofs.Grid
import Raster.View.Lemmas

/-!
The visible samples of a view, read as one function of row, pixel and channel.  Main statements:
`exists_shows`, there is such a function for every view, and `packed_shows`, every such function is
that of a packed view.
-/

namespace Raster.View

variable {α : Type} {channels : Nat}

/-- Every visible sample of the view is the one given for its row, pixel and channel. -/
def Shows (view : View α channels) (sample : Nat → Nat → Nat → α) : Prop :=
  -- Padding and spare samples of the buffer are not visible.
  ∀ y x c, y < view.layout.height → x < view.layout.width → c < channels →
    view.sample? y x c = some (sample y x c)

/-- The visible samples of every view are given by some function. -/
theorem exists_shows (view : View α channels) : ∃ sample, view.Shows sample := by
  -- An accepted view lies over at least one sample, which serves wherever nothing is asked.
  have positive := view.fits.length_pos
  have first := view.data[0]
  refine ⟨fun y x c => (view.sample? y x c).getD first, fun y x c inImage inRow inPixel => ?_⟩
  obtain ⟨value, read⟩ :=
    Option.isSome_iff_exists.mp (view.sample?_isSome inImage inRow inPixel)
  simp [read]

/-- A single row of samples shows what is read along it. -/
theorem shows_of_row {view : View α 1} {sample : Nat → Nat → Nat → α}
    (single : view.layout.height = 1)
    (read : ∀ x, x < view.layout.width → view.sample? 0 x 0 = some (sample 0 x 0)) :
    view.Shows sample := by
  -- There is no row but the first, and no channel.
  intro y x c inImage inRow inPixel
  obtain rfl : y = 0 := by omega
  obtain rfl : c = 0 := by omega
  exact read x inRow

/-- An extent that has pixels, and whose rows of pixels are words and have samples. -/
structure Packs (extent : Extent) (channels : Nat) : Prop where
  -- Packed rows have no gaps, so the samples of a row are its stride.
  height_pos : 0 < extent.height
  width_pos : 0 < extent.width
  channels_pos : 0 < channels
  rowLength_lt : extent.width * channels < wordLimit

/-- Packed rows take up a buffer of just their samples. -/
theorem Packs.fits {extent : Extent} (packs : Packs extent channels) :
    Layout.Fits ⟨extent.height, extent.width, extent.width * channels⟩ channels
      (extent.height * extent.width * channels) := by
  obtain ⟨tall, wide, positive, short⟩ := packs
  -- Before the last row stand all rows but one.
  have rows : extent.height * extent.width * channels =
      (extent.height - 1) * (extent.width * channels) + extent.width * channels := by
    rw [← Nat.succ_mul, Nat.succ_eq_add_one, Nat.sub_add_cancel tall, Nat.mul_assoc]
  refine ⟨tall, wide, short, Nat.le_refl _, Nat.mul_pos (Nat.mul_pos tall wide) positive, ?_⟩
  simp only [Layout.required, Layout.rowLength]
  omega

/-- The packed view of an extent whose samples are given by row, pixel and channel. -/
def packed {extent : Extent} (packs : Packs extent channels) (sample : Nat → Nat → Nat → α) :
    View α channels where
  layout := ⟨extent.height, extent.width, extent.width * channels⟩
  -- Places count channels first, then pixels, then rows.
  data := Array.ofFn fun place : Fin (extent.height * extent.width * channels) =>
    sample (place / (extent.width * channels)) (place / channels % extent.width)
      (place % channels)
  fits := by
    rw [Array.size_ofFn]
    exact packs.fits

/-- A packed view has as many samples as its extent has places. -/
theorem size_packed {extent : Extent} (packs : Packs extent channels)
    (sample : Nat → Nat → Nat → α) :
    (packed packs sample).data.size = extent.height * extent.width * channels :=
  Array.size_ofFn

/-- A packed view shows the samples that it is made of. -/
theorem packed_shows {extent : Extent} (packs : Packs extent channels)
    (sample : Nat → Nat → Nat → α) : (packed packs sample).Shows sample := by
  intro y x c inImage inRow inPixel
  -- Without gaps a sample lies at its position in row, pixel and channel order.
  have place : (packed packs sample).layout.rowStart y + (x * channels + c) =
      (y * extent.width + x) * channels + c := by
    rw [Nat.add_mul, Nat.mul_assoc, Nat.add_assoc]
    rfl
  have held : (y * extent.width + x) * channels + c < extent.height * extent.width * channels :=
    Grid.position_lt inImage inRow inPixel
  have inWidth : x < extent.width := inRow
  obtain ⟨row, column, channel⟩ := Grid.position_parts (y := y) inWidth inPixel
  rw [sample?_eq _ inRow inPixel, place, packed, Array.getElem?_ofFn, dif_pos held, row, column,
    channel]

/-- Bytes that are all zero but for one brightest column of pixels. -/
def brightColumn {extent : Extent} (packs : Packs extent 1) (column : Nat) : View UInt8 1 :=
  packed packs fun _ x _ => if x = column then 255 else 0

/-- A view loads an image of its own extent, which has rows and columns and shows its samples. -/
theorem Shows.exists_load? {view : View α channels} {sample : Nat → Nat → Nat → α}
    (shows : view.Shows sample) :
    ∃ image, view.load? = some image ∧ image.height = view.layout.height ∧
      image.width = view.layout.width ∧ 0 < image.height ∧ 0 < image.width ∧
      image.Shows sample := by
  -- An accepted layout has rows and columns, and loading reads every visible sample.
  obtain ⟨image, loaded, height, width, same⟩ := view.exists_load?
  refine ⟨image, loaded, height, width, ?_, ?_, ?_⟩
  · rw [height]
    exact view.fits.height_pos
  · rw [width]
    exact view.fits.width_pos
  · intro y x c inImage inRow inPixel
    rw [same y x c (by omega) (by omega) inPixel]
    exact shows y x c (by omega) (by omega) inPixel

end Raster.View
