import Raster.Proofs.Launch.Finish
import Raster.Proofs.View.Routes

/-!
Kernels that compute an image from a source and write it over a target.  Main statements:
`Fills.exists_transform?`, such a kernel finishes, writes the computed image over the visible
samples and leaves the rest of the buffer alone, `Fills.transform?_alike`, what it writes depends
on the image of the source alone, and `Writer.run_eq` with `Writer.fills`, resizing and filtering
are such kernels.
-/

namespace Raster

section

variable {α : Type} {channels : Nat}

/-- Writes over a target the image that is computed from the image of a source. -/
def transform? (compute : Grid α channels → Option (Grid α channels))
    (source target : View α channels) : Option (View α channels) := do
  -- Nothing is stored before all of the image has been computed.
  let image ← source.load?
  let computed ← compute image
  target.store? computed

/-- From the image of the source an image of the target's extent can be computed. -/
def Fills (compute : Grid α channels → Option (Grid α channels)) (source target : View α channels) :
    Prop :=
  -- The target decides the extent, and the source everything else.
  ∀ image, source.load? = some image → ∃ computed, compute image = some computed ∧
    computed.height = target.layout.height ∧ computed.width = target.layout.width

/-- The places of a buffer that hold the visible samples of a layout. -/
def Layout.Holds (layout : Layout) (channels place : Nat) : Prop :=
  ∃ y k, y < layout.height ∧ k < layout.rowLength channels ∧ place = layout.rowStart y + k

/-- Views of one layout that show one image agree at the places of its visible samples. -/
theorem View.SameImage.getElem?_eq {view other : View α channels} (same : view.SameImage other)
    (layout : view.layout = other.layout) {place : Nat}
    (held : view.layout.Holds channels place) : view.data[place]? = other.data[place]? := by
  obtain ⟨y, k, inImage, inRow, rfl⟩ := held
  -- The place belongs to a pixel of the row and a channel of the pixel.
  obtain ⟨inWidth, inPixel⟩ := parts_of_place inRow
  have samples := same.samples y _ _ inImage inWidth inPixel
  rw [sample?_eq view inWidth inPixel, sample?_eq other (layout ▸ inWidth) inPixel, ← layout,
    Nat.mul_comm, Nat.div_add_mod] at samples
  exact samples

/-- Both views lie alike in buffers that differ in visible samples alone. -/
structure View.Overwrites (written target : View α channels) : Prop where
  layout : written.layout = target.layout
  size : written.data.size = target.data.size
  -- What lies between and behind the rows is not the kernel's.
  rest : ∀ place, ¬ target.layout.Holds channels place → written.data[place]? = target.data[place]?

variable {compute : Grid α channels → Option (Grid α channels)} {source target : View α channels}

/-- A computation that fills the target is carried out, and only visible samples are written. -/
theorem Fills.exists_transform? (fills : Fills compute source target) :
    ∃ image computed written, source.load? = some image ∧ compute image = some computed ∧
      transform? compute source target = some written ∧ written.Overwrites target ∧
      ∀ y x c, y < target.layout.height → x < target.layout.width → c < channels →
        written.sample? y x c = computed.at? y x c := by
  -- The source loads, the computed image fills the target, and storing it is all that is done.
  obtain ⟨image, loaded, -⟩ := source.exists_load?
  obtain ⟨computed, built, height, width⟩ := fills image loaded
  obtain ⟨written, stored, layout, size, visible, rest⟩ :=
    target.exists_store? computed height width
  refine ⟨image, computed, written, loaded, built, ?_, ⟨layout, size, ?_⟩, visible⟩
  · simp only [transform?, loaded, built, stored, Option.bind_eq_bind, Option.bind_some]
  · intro place hidden
    apply rest
    intro y k inImage inRow same
    exact hidden ⟨y, k, inImage, inRow, same⟩

/-- What is written depends on the image of the source and the extent of the target alone. -/
theorem Fills.transform?_alike {other place : View α channels}
    (fills : Fills compute source target) (same : source.SameImage other)
    (extents : target.extent = place.extent) :
    ∃ written again, transform? compute source target = some written ∧
      transform? compute other place = some again ∧ written.SameImage again := by
  have heights : target.layout.height = place.layout.height := congrArg Extent.height extents
  have widths : target.layout.width = place.layout.width := congrArg Extent.width extents
  -- The other source loads the same image, so the same computation fills the other target.
  have also : Fills compute other place := by
    intro image loaded
    rw [← same.load?_eq] at loaded
    rw [← heights, ← widths]
    exact fills image loaded
  obtain ⟨image, computed, written, loaded, built, finished, left, samples⟩ :=
    fills.exists_transform?
  obtain ⟨_, _, again, loadedAgain, builtAgain, finishedAgain, right, samplesAgain⟩ :=
    also.exists_transform?
  rw [← same.load?_eq, loaded, Option.some.injEq] at loadedAgain
  subst loadedAgain
  rw [built, Option.some.injEq] at builtAgain
  subst builtAgain
  refine ⟨written, again, finished, finishedAgain, ?_, ?_⟩
  · rw [View.extent, View.extent, left.layout, right.layout]
    exact extents
  · intro y x c inImage inRow inPixel
    rw [left.layout] at inImage inRow
    rw [samples y x c inImage inRow inPixel,
      samplesAgain y x c (by omega) (by omega) inPixel]

end

/-- A kernel that writes an image over a target, with its selectors. -/
inductive Writer where
  | resize (mode : Resampling)
  | boxFilter (window : BoxWindow)

namespace Writer

variable {α : Type} [Element α Float32 Float] {channels : Nat}

/-- Runs the kernel on two views. -/
def run (writer : Writer) (source target : View α channels) :
    Except Refusal (Option (View α channels)) :=
  match writer with
  | .resize mode => Raster.resize mode source target
  | .boxFilter window => Raster.boxFilter window source target

/-- The judgements that the kernel passes on the channels and the extents of its views. -/
def judge (writer : Writer) (channels : Nat) (source target : Extent) : Except Refusal Unit :=
  match writer with
  -- Resizing accepts any two extents, and a filter two equal ones.
  | .resize _ => checkChannels channels
  | .boxFilter _ => do
    checkChannels channels
    checkExtent source target

/-- The image that the kernel computes for a target of the given extent. -/
def compute? (writer : Writer) (target : Extent) (image : Grid α channels) :
    Option (Grid α channels) :=
  match writer with
  -- The extent of the target matters for resizing alone, since filters keep that of the source.
  | .resize mode => mode.resize? image target
  | .boxFilter window => window.filter? image

/-- After its judgements the kernel computes an image and writes it. -/
theorem run_eq (writer : Writer) (source target : View α channels) :
    writer.run source target = (writer.judge channels source.extent target.extent).map fun _ =>
      transform? (writer.compute? target.extent) source target := by
  -- Both kernels judge first and then load, compute and store.
  cases writer with
  | resize mode =>
    simp only [run, judge, Raster.resize]
    cases checkChannels channels <;> rfl
  | boxFilter window =>
    simp only [run, judge, Raster.boxFilter]
    cases checkChannels channels with
    | error reason => rfl
    | ok _ => cases checkExtent source.extent target.extent <;> rfl

/-- A kernel that passes its judgements computes an image of the target's extent. -/
theorem fills (writer : Writer) {source target : View α channels}
    (passed : writer.judge channels source.extent target.extent = .ok ()) :
    Fills (writer.compute? target.extent) source target := by
  intro image loaded
  obtain ⟨sample, visible⟩ := source.exists_shows
  obtain ⟨other, again, height, width, tall, wide, shows⟩ := visible.exists_load?
  rw [loaded, Option.some.injEq] at again
  subst again
  cases writer with
  | resize mode =>
    have rows : 0 < target.extent.height := target.fits.height_pos
    obtain ⟨resized, built, sameHeight, sameWidth, -⟩ := mode.exists_resize?
      Area.Share.startsInside_float shows tall wide rows target.fits.width_pos
    exact ⟨resized, built, sameHeight, sameWidth⟩
  | boxFilter window =>
    -- The filtered image has the extent of the source, which is that of the target.
    obtain ⟨_, -, same⟩ := judged passed
    have extents := eq_of_checkExtent same
    obtain ⟨filtered, built, sameHeight, sameWidth, -⟩ := window.exists_filter? shows tall wide
    refine ⟨filtered, built, ?_, ?_⟩
    · rw [sameHeight, height]
      exact congrArg Extent.height extents
    · rw [sameWidth, width]
      exact congrArg Extent.width extents

/-- A kernel that is not refused overwrites its target, with samples that only its source decides.
-/
theorem overwrites {writer : Writer} {source target : View α channels}
    {outcome : Option (View α channels)} (accepted : writer.run source target = .ok outcome) :
    ∃ written, outcome = some written ∧ written.Overwrites target ∧
      ∀ place, place.extent = target.extent → ∃ again,
        writer.run source place = .ok (some again) ∧ written.SameImage again := by
  rw [run_eq] at accepted
  cases passed : writer.judge channels source.extent target.extent with
  | error reason =>
    rw [passed] at accepted
    cases accepted
  | ok _ =>
    rw [passed] at accepted
    cases accepted
    have fills := writer.fills passed
    obtain ⟨_, _, written, -, -, finished, left, -⟩ := fills.exists_transform?
    refine ⟨written, finished, left, ?_⟩
    intro place extents
    -- On another target of the extent the same judgements are passed and the same image is written.
    have itself : source.SameImage source := ⟨rfl, fun _ _ _ _ _ _ => rfl⟩
    obtain ⟨first, again, same, finishedAgain, visible⟩ :=
      fills.transform?_alike itself extents.symm
    rw [finished, Option.some.injEq] at same
    subst same
    refine ⟨again, ?_, visible⟩
    rw [run_eq, extents, passed, ← finishedAgain]
    rfl

end Writer

/-- A view of a single byte. -/
def onePixel : View Depth.byte.Sample 1 := ⟨⟨1, 1, 1⟩, #[7], Layout.check_eq_ok_iff.mp rfl⟩

end Raster
