import Raster.Proofs.Kernel.Transform
import Raster.Proofs.Resize.Formed

/-!
Channels are apart.  Main statement: `run_isPlane`, one channel of what a kernel writes is what the
kernel writes when it is given that channel alone.
-/

namespace Raster

namespace View

variable {α : Type} {channels c : Nat}

/-- The only channel of a plane is one channel of an image of its extent. -/
structure IsPlane (plane : View α 1) (image : View α channels) (c : Nat) : Prop where
  -- The plane may lie in its buffer in any way.
  extent : plane.extent = image.extent
  samples : ∀ y < image.layout.height, ∀ x < image.layout.width,
    plane.sample? y x 0 = image.sample? y x c

variable {plane : View α 1} {image : View α channels} {sample : Nat → Nat → Nat → α}

/-- A plane shows the samples of its channel. -/
theorem IsPlane.shows (isPlane : plane.IsPlane image c) (inPixel : c < channels)
    (shows : image.Shows sample) : plane.Shows fun y x _ => sample y x c := by
  -- A plane has a single channel, and its extent is that of the image.
  intro y x only inImage inRow one
  have height : plane.layout.height = image.layout.height := congrArg Extent.height isPlane.extent
  have width : plane.layout.width = image.layout.width := congrArg Extent.width isPlane.extent
  obtain rfl : only = 0 := by omega
  rw [height] at inImage
  rw [width] at inRow
  rw [isPlane.samples y inImage x inRow]
  exact shows y x c inImage inRow inPixel

/-- A view of the extent that shows the samples of one channel is its plane. -/
theorem Shows.isPlane (shows : image.Shows sample) (inPixel : c < channels)
    (extent : plane.extent = image.extent) (planeShows : plane.Shows fun y x _ => sample y x c) :
    plane.IsPlane image c := by
  -- Plane and image have the same rows and columns.
  have height : plane.layout.height = image.layout.height := congrArg Extent.height extent
  have width : plane.layout.width = image.layout.width := congrArg Extent.width extent
  refine ⟨extent, fun y inImage x inRow => ?_⟩
  rw [shows y x c inImage inRow inPixel]
  exact planeShows y x 0 (by omega) (by omega) (by omega)

/-- Every channel of an image has a plane. -/
theorem exists_isPlane (image : View α channels) (inPixel : c < channels) :
    ∃ plane : View α 1, plane.IsPlane image c := by
  obtain ⟨sample, shows⟩ := image.exists_shows
  -- The rows of one channel are no longer than those of all channels.
  have short : image.extent.width * 1 < wordLimit := by
    have row := image.fits.rowLength_lt
    have least := Nat.le_mul_of_pos_right image.layout.width (Nat.zero_lt_of_lt inPixel)
    rw [Layout.rowLength] at row
    show image.layout.width * 1 < wordLimit
    omega
  have packs : Packs image.extent 1 :=
    ⟨image.fits.height_pos, image.fits.width_pos, Nat.one_pos, short⟩
  exact ⟨packed packs fun y x _ => sample y x c, shows.isPlane inPixel rfl (packed_shows packs _)⟩

end View

namespace Writer

variable {α : Type} [Element α Float32 Float] {channels : Nat} {source target : View α channels}

/-- The sample that a kernel forms at pixel `x` of row `y` from the samples of one channel. -/
def formed (writer : Writer) (source target : Extent) (sample : Nat → Nat → α) (y x : Nat) : α :=
  -- What is formed depends on the samples of one channel, whichever that is.
  match writer with
  | .resize mode => mode.formed source target sample y x
  | .boxFilter window =>
    Element.ofDouble (window.scaled (window.sumAt source.height source.width sample y x))

/-- A kernel that passes its judgements shows, channel by channel, what it forms from that channel
alone. -/
theorem exists_run_formed {writer : Writer} {sample : Nat → Nat → Nat → α}
    (passed : writer.judge channels source.extent target.extent = .ok ())
    (shows : source.Shows sample) :
    ∃ written, writer.run source target = .ok (some written) ∧ written.layout = target.layout ∧
      written.Shows fun y x c =>
        writer.formed source.extent target.extent (fun row column => sample row column c) y x := by
  -- Resizing is judged by its channels alone, filtering by both extents too.
  cases writer with
  | resize mode => exact exists_resize_formed Area.Share.startsInside_float mode passed shows
  | boxFilter window =>
    obtain ⟨_, accepted, same⟩ := judged passed
    exact exists_boxFilter_shows window shows accepted (eq_of_checkExtent same)

/-- A kernel that is not refused has passed its judgements. -/
theorem judge_of_run {writer : Writer} {outcome : Option (View α channels)}
    (accepted : writer.run source target = .ok outcome) :
    writer.judge channels source.extent target.extent = .ok () := by
  -- What passes a judgement has passed the first one.
  rw [run_eq] at accepted
  cases passed : writer.judge channels source.extent target.extent with
  | error reason =>
    rw [passed] at accepted
    cases accepted
  | ok _ => rfl

/-- Judgements that are passed on some channels are passed on a single one. -/
theorem judge_one {writer : Writer} {first second : Extent}
    (passed : writer.judge channels first second = .ok ()) :
    writer.judge 1 first second = .ok () := by
  -- Only the extents are judged, since one channel is always processed.
  cases writer with
  | resize mode => rfl
  | boxFilter window =>
    obtain ⟨_, -, same⟩ := judged passed
    exact same

end Writer

/-- Channels never mix: a channel of what a kernel writes is what the same kernel writes when it is
given the plane of that channel, and every channel has a plane. -/
theorem run_isPlane {α : Type} [Element α Float32 Float] {channels c : Nat} (writer : Writer)
    {source target : View α channels} {outcome : Option (View α channels)}
    (accepted : writer.run source target = .ok outcome) (inPixel : c < channels) :
    (∃ plane : View α 1, plane.IsPlane source c) ∧ ∃ written, outcome = some written ∧
      ∀ plane page : View α 1, plane.IsPlane source c → page.extent = target.extent →
        ∃ again, writer.run plane page = .ok (some again) ∧ again.IsPlane written c := by
  obtain ⟨sample, shows⟩ := source.exists_shows
  have passed := Writer.judge_of_run accepted
  obtain ⟨written, finished, layout, visible⟩ := Writer.exists_run_formed passed shows
  rw [finished, Except.ok.injEq] at accepted
  refine ⟨source.exists_isPlane inPixel, written, accepted.symm, ?_⟩
  intro plane page isPlane extents
  -- From the plane the kernel forms the same samples, since it forms a channel from itself alone.
  have alone : writer.judge 1 plane.extent page.extent = .ok () := by
    rw [isPlane.extent, extents]
    exact Writer.judge_one passed
  obtain ⟨again, finishedAgain, layoutAgain, visibleAgain⟩ :=
    Writer.exists_run_formed alone (isPlane.shows inPixel shows)
  rw [isPlane.extent, extents] at visibleAgain
  refine ⟨again, finishedAgain, visible.isPlane inPixel ?_ visibleAgain⟩
  rw [View.extent, View.extent, layoutAgain, layout]
  exact extents

/-- A row of two pixels of three bytes. -/
def pairOfPixels : View UInt8 3 := ⟨⟨1, 2, 6⟩, #[1, 2, 3, 4, 5, 6], Layout.check_eq_ok_iff.mp rfl⟩

/-- The second bytes of both pixels. -/
def secondBytes : View UInt8 1 := ⟨⟨1, 2, 2⟩, #[2, 5], Layout.check_eq_ok_iff.mp rfl⟩

/-- A single pixel of three bytes. -/
def lonePixel : View UInt8 3 := ⟨⟨1, 1, 3⟩, #[0, 0, 0], Layout.check_eq_ok_iff.mp rfl⟩

/-- A single byte, with one to spare. -/
def loneByte : View UInt8 1 := ⟨⟨1, 1, 2⟩, #[9, 9], Layout.check_eq_ok_iff.mp rfl⟩

/-- The second byte of the mean of two pixels is the mean of their second bytes. -/
theorem run_isPlane_secondBytes : ∃ written again,
    (Writer.resize .area).run pairOfPixels lonePixel = .ok (some written) ∧ 1 < 3 ∧
    secondBytes.IsPlane pairOfPixels 1 ∧ loneByte.extent = lonePixel.extent ∧
    (Writer.resize .area).run secondBytes loneByte = .ok (some again) ∧
    again.IsPlane written 1 := by
  -- The middle one of three channels is looked at.
  obtain ⟨written, finished⟩ := exists_resize .area pairOfPixels lonePixel rfl
  have isPlane : secondBytes.IsPlane pairOfPixels 1 := ⟨rfl, by decide⟩
  obtain ⟨-, _, same, alone⟩ :=
    @run_isPlane UInt8 _ 3 1 (.resize .area) pairOfPixels lonePixel _ finished (by decide)
  rw [Option.some.injEq] at same
  subst same
  obtain ⟨again, finishedAgain, isPlaneAgain⟩ := alone secondBytes loneByte isPlane rfl
  exact ⟨written, again, finished, by decide, isPlane, rfl, finishedAgain, isPlaneAgain⟩

end Raster
