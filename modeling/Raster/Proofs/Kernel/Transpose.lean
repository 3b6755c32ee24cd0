import Raster.Proofs.Box.DirectSum
import Raster.Proofs.Launch.Finish
import Raster.Proofs.Resize.Transpose

/-!
Kernels and the two axes.  Main statement: `kernels_transpose`, in exact arithmetic a kernel makes
of the transposed image the transpose of what it makes of the image.
-/

namespace Raster

/-- Samples that kernels read and store in exact arithmetic: they may be read and stored in any way,
but a run of them is totalled without rounding. -/
class ExactElement (α : Type) extends Element α ℚ ℚ where
  total_eq : ∀ run : List α, total run = (run.map toDouble).sum

instance : ExactElement ℚ where
  total_eq run := by
    -- Exact numbers are added from the first one on.
    show (Element.total run : ℚ) = (run.map id).sum
    rw [List.map_id, total_rat]

variable {α : Type} [ExactElement α]

namespace WindowAxis

/-- The window sum along a row is that of the numbers that its samples are read as. -/
theorem rowSum_toDouble (axis : WindowAxis) (row : Nat → α) (x : Nat) :
    (axis.rowSum row x : ℚ) =
      axis.rowSum (fun column => (Element.toDouble (row column) : ℚ)) x := by
  -- The run is totalled exactly, and everything else reads samples one at a time.
  have run : (Element.total ((axis.run (axis.parts x)).map row) : ℚ) =
      Element.total ((axis.run (axis.parts x)).map fun column =>
        (Element.toDouble (row column) : ℚ)) := by
    rw [total_rat, ExactElement.total_eq, List.map_map]
    rfl
  have period : (axis.rowPeriod row : ℚ) =
      axis.rowPeriod fun column => (Element.toDouble (row column) : ℚ) := by
    rw [rowPeriod, rowPeriod, List.foldl_map, List.foldl_map]
    rfl
  rw [rowSum, rowSum, run, period]
  rfl

end WindowAxis

namespace BoxWindow

/-- The window with its sides exchanged. -/
def turned (window : BoxWindow) : BoxWindow :=
  { window with width := window.height, height := window.width }

/-- The direct sum over a window of the transposed image is that over the window of the image. -/
theorem directSum_turned (window : BoxWindow) (height width : Nat) (sample : Nat → Nat → ℚ)
    (y x : Nat) :
    window.turned.directSum width height (fun y x => sample x y) x y =
      window.directSum height width sample y x :=
  Finset.sum_comm

/-- The window sum at a place of the transposed image is that at the transposed place. -/
theorem sumAt_turned (window : BoxWindow) {height width y x : Nat} (sample : Nat → Nat → α)
    (inImage : y < height) (inRow : x < width) :
    (window.turned.sumAt width height (fun y x => sample x y) x y : ℚ) =
      window.sumAt height width sample y x := by
  -- Samples are read as numbers first, and of numbers both are the direct sum over the window.
  have numbers : ∀ (window : BoxWindow) (height width : Nat) (sample : Nat → Nat → α) (y x : Nat),
      (window.sumAt height width sample y x : ℚ) = window.sumAt height width
        (fun line column => (Element.toDouble (sample line column) : ℚ)) y x := by
    intro window height width sample y x
    have rows := funext fun line =>
      (WindowAxis.make width window.width window.border).rowSum_toDouble (sample line) x
    rw [sumAt, sumAt, rows]
  rw [numbers, numbers, sumAt_rat _ _ inRow inImage, sumAt_rat _ _ inImage inRow]
  exact window.directSum_turned height width _ y x

/-- A window with its sides exchanged is as large. -/
theorem scaled_turned (window : BoxWindow) (sum : ℚ) :
    window.turned.scaled sum = window.scaled sum := by
  -- A turned window has as many samples, so its sum is divided by the same number.
  rw [scaled_rat, scaled_rat]
  show (if window.normalize then sum * (1 / ((window.height : ℚ) * window.width)) else sum) = _
  rw [mul_comm (window.height : ℚ)]

end BoxWindow

section

variable {channels : Nat}

/-- One view shows the transpose of the image that the other shows. -/
structure View.Transposes {α : Type} {channels : Nat} (turned image : View α channels) : Prop where
  -- Row and column change places, and channels stay together.
  extent : turned.extent = image.extent.turned
  samples : ∀ y < image.layout.height, ∀ x < image.layout.width, ∀ c < channels,
    turned.sample? x y c = image.sample? y x c

variable {image turned : View α channels} {sample : Nat → Nat → Nat → α}

omit [ExactElement α] in
/-- The transpose shows the samples of an image at the transposed places. -/
theorem View.Transposes.shows (transposes : turned.Transposes image) (shows : image.Shows sample) :
    turned.Shows fun y x c => sample x y c := by
  -- Inside the turned image each position belongs to one of the image.
  intro y x c inImage inRow inPixel
  have height : turned.layout.height = image.layout.width :=
    congrArg Extent.height transposes.extent
  have width : turned.layout.width = image.layout.height := congrArg Extent.width transposes.extent
  rw [height] at inImage
  rw [width] at inRow
  rw [transposes.samples x inRow y inImage c inPixel]
  exact shows x y c inRow inImage inPixel

omit [ExactElement α] in
/-- A view of the transposed extent that shows the samples at the transposed places transposes. -/
theorem View.Shows.transposes (shows : image.Shows sample)
    (extent : turned.extent = image.extent.turned) {other : Nat → Nat → Nat → α}
    (turnedShows : turned.Shows other)
    (same : ∀ y < image.layout.height, ∀ x < image.layout.width, ∀ c,
      other x y c = sample y x c) : turned.Transposes image := by
  -- Both have their sides from one extent.
  have height : turned.layout.height = image.layout.width := congrArg Extent.height extent
  have width : turned.layout.width = image.layout.height := congrArg Extent.width extent
  refine ⟨extent, fun y inImage x inRow c inPixel => ?_⟩
  rw [shows y x c inImage inRow inPixel, turnedShows x y c (by omega) (by omega) inPixel,
    same y inImage x inRow]

end

/-- In exact arithmetic kernels treat both axes alike: resizing the transposed image onto the
transposed extent, and filtering it under the window with its sides exchanged, gives the transpose
of what the image gives. -/
theorem kernels_transpose {channels : Nat} {source target turned page : View α channels}
    (accepted : checkChannels channels = .ok ()) (transposes : turned.Transposes source)
    (extents : page.extent = target.extent.turned) :
    (∀ mode : Resampling, ∃ written again, resize mode source target = .ok (some written) ∧
      resize mode turned page = .ok (some again) ∧ again.Transposes written) ∧
    (source.extent = target.extent → ∀ window : BoxWindow, ∃ written again,
      boxFilter window source target = .ok (some written) ∧
      boxFilter window.turned turned page = .ok (some again) ∧ again.Transposes written) := by
  -- One function gives the samples of both sources, with the places exchanged.
  obtain ⟨sample, shows⟩ := source.exists_shows
  have turnedShows := transposes.shows shows
  constructor
  · intro mode
    obtain ⟨written, finished, layout, visible⟩ :=
      exists_resize_formed Area.Share.startsInside_rat mode accepted shows
    obtain ⟨again, finishedAgain, layoutAgain, visibleAgain⟩ :=
      exists_resize_formed Area.Share.startsInside_rat mode accepted turnedShows
    refine ⟨written, again, finished, finishedAgain, visible.transposes ?_ visibleAgain ?_⟩
    · rw [View.extent, View.extent, layoutAgain, layout]
      exact extents
    · intro y _ x _ c
      rw [transposes.extent, extents]
      exact mode.formed_turned source.extent target.extent y x
  · intro same window
    -- The extents of the transposed views are the same as well.
    have sameTurned : turned.extent = page.extent := by
      rw [transposes.extent, extents, same]
    obtain ⟨written, finished, layout, visible⟩ :=
      exists_boxFilter_shows window shows accepted same
    obtain ⟨again, finishedAgain, layoutAgain, visibleAgain⟩ :=
      exists_boxFilter_shows window.turned turnedShows accepted sameTurned
    refine ⟨written, again, finished, finishedAgain, visible.transposes ?_ visibleAgain ?_⟩
    · rw [View.extent, View.extent, layoutAgain, layout]
      exact extents
    · intro y inImage x inRow c
      have height : turned.layout.height = source.layout.width :=
        congrArg Extent.height transposes.extent
      have width : turned.layout.width = source.layout.height :=
        congrArg Extent.width transposes.extent
      have rows : source.layout.height = target.layout.height := congrArg Extent.height same
      have columns : source.layout.width = target.layout.width := congrArg Extent.width same
      rw [layout] at inImage inRow
      rw [height, width, window.sumAt_turned (fun line column => sample line column c)
        (by omega) (by omega), window.scaled_turned]

/-- A row of three numbers. -/
def exactRow : View ℚ 1 := ⟨⟨1, 3, 3⟩, #[1, 2, 4], Layout.check_eq_ok_iff.mp rfl⟩

/-- The same numbers in a column, with a number between rows. -/
def exactColumn : View ℚ 1 := ⟨⟨3, 1, 2⟩, #[1, 0, 2, 0, 4], Layout.check_eq_ok_iff.mp rfl⟩

/-- Room for a row of two numbers. -/
def exactPair : View ℚ 1 := ⟨⟨1, 2, 2⟩, #[0, 0], Layout.check_eq_ok_iff.mp rfl⟩

/-- Room for a column of two numbers. -/
def exactStack : View ℚ 1 := ⟨⟨2, 1, 1⟩, #[0, 0], Layout.check_eq_ok_iff.mp rfl⟩

/-- A row is averaged as its column is, and filtered as its column is under an upright window. -/
theorem kernels_transpose_exactRow : checkChannels 1 = .ok () ∧
    exactColumn.Transposes exactRow ∧ exactStack.extent = exactPair.extent.turned ∧
    (∃ written again, resize .area exactRow exactPair = .ok (some written) ∧
      resize .area exactColumn exactStack = .ok (some again) ∧ again.Transposes written) ∧
    ∃ written again, boxFilter ⟨2, 1, true, .reflect⟩ exactRow exactRow = .ok (some written) ∧
      boxFilter ⟨1, 2, true, .reflect⟩ exactColumn exactColumn = .ok (some again) ∧
      again.Transposes written := by
  -- A row is resized and filtered beside the column that it is turned into.
  have transposes : exactColumn.Transposes exactRow := ⟨rfl, by decide⟩
  obtain ⟨resized, -⟩ := @kernels_transpose ℚ _ 1 exactRow exactPair exactColumn exactStack rfl
    transposes rfl
  obtain ⟨-, filtered⟩ := @kernels_transpose ℚ _ 1 exactRow exactRow exactColumn exactColumn rfl
    transposes rfl
  exact ⟨rfl, transposes, rfl, resized .area, filtered rfl ⟨2, 1, true, .reflect⟩⟩

end Raster
