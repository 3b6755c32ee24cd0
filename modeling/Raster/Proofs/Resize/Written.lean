import Raster.Proofs.Resize.Blocks
import Raster.Proofs.Resize.Overlaps
import Raster.Proofs.Resize.Taps
import Raster.Proofs.View
import Raster.Resize

/-!
What a resize writes: the visible samples of its target are those of the resized image.  Main
statements: `exists_resize_blocks` and `exists_resize_overlaps`, the samples that shrinking by areas
gives, `exists_resize_linear` and `exists_resize_growth`, the samples that taps give, and
`exists_resize_nearest`, the samples that are copied.
-/

namespace Raster

variable {α S D : Type} [Scalar S] [Wide D S] [Element α S D] {channels : Nat}
variable {mode : Resampling} {source target : View α channels} {image resized : Grid α channels}
variable {sample : Nat → Nat → Nat → α}

/-- When the image of the source resizes to the extent of the target, the target gets it whole. -/
theorem exists_resize_of_resize? (accepted : checkChannels channels = .ok ())
    (loaded : source.load? = some image) (built : mode.resize? image target.extent = some resized)
    (height : resized.height = target.layout.height)
    (width : resized.width = target.layout.width) :
    ∃ written, resize mode source target = .ok (some written) ∧ written.layout = target.layout ∧
      ∀ sample, resized.Shows sample → written.Shows sample := by
  -- Storing writes every visible sample of the target and nothing else.
  obtain ⟨written, stored, layout, -, same, -⟩ := target.exists_store? resized height width
  refine ⟨written, ?_, layout, fun sample shows y x c inImage inRow inPixel => ?_⟩
  · simp only [resize, accepted, loaded, built, stored, Option.bind_eq_bind, Option.bind_some]
    rfl
  · rw [layout] at inImage inRow
    rw [same y x c inImage inRow inPixel]
    exact shows y x c (by omega) (by omega) inPixel

/-- When every image that shows the samples of the source resizes to one that shows given samples,
the target shows those. -/
theorem exists_resize_of_image (accepted : checkChannels channels = .ok ())
    (shows : source.Shows sample) {given : Nat → Nat → Nat → α}
    (forms : ∀ image : Grid α channels, image.height = source.layout.height →
      image.width = source.layout.width → 0 < image.height → 0 < image.width →
      image.Shows sample → ∃ resized, mode.resize? image target.extent = some resized ∧
        resized.height = target.layout.height ∧ resized.width = target.layout.width ∧
        resized.Shows given) :
    ∃ written, resize mode source target = .ok (some written) ∧ written.layout = target.layout ∧
      written.Shows given := by
  -- The image that is loaded is one that shows the samples of the source.
  obtain ⟨image, loaded, height, width, tall, wide, imageShows⟩ := shows.exists_load?
  obtain ⟨resized, built, newHeight, newWidth, values⟩ :=
    forms image height width tall wide imageShows
  obtain ⟨written, finished, layout, same⟩ :=
    exists_resize_of_resize? accepted loaded built newHeight newWidth
  exact ⟨written, finished, layout, same _ values⟩

/-- The image that the resizing named by a plan gives. -/
def Area.Plan.carry? (plan : Plan) (image : Grid α channels) (target : Extent) :
    Option (Grid α channels) :=
  match plan with
  | .blocks across down => Blocks.resize? image across down target
  | .overlaps => Overlaps.resize? image target
  | .growth => Growth.resize? image target

/-- An image of the extent of the source is resized by areas as the plan for both extents says. -/
theorem resize?_of_plan {plan : Area.Plan}
    (planned : Area.plan? source.extent target.extent = some plan)
    (height : image.height = source.layout.height) (width : image.width = source.layout.width) :
    Resampling.resize? .area image target.extent = plan.carry? image target.extent := by
  -- The plan looks at the extent of the image alone.
  have extent : source.extent = ⟨image.height, image.width⟩ := by
    rw [height, width]
    rfl
  rw [extent] at planned
  simp only [Resampling.resize?, Area.resize?, planned, Option.bind_eq_bind, Option.bind_some]
  cases plan <;> rfl

/-- Where the plan is to average blocks, the target shows the mean of every block. -/
theorem exists_resize_blocks {across down : Nat} (accepted : checkChannels channels = .ok ())
    (planned : Area.plan? source.extent target.extent = some (.blocks across down))
    (shows : source.Shows sample) :
    ∃ written, resize .area source target = .ok (some written) ∧ written.layout = target.layout ∧
      written.Shows fun y x c => Element.ofSingle (Area.Blocks.mean across down
        (Area.Blocks.block (fun row column => sample row column c) across down y x)) := by
  refine exists_resize_of_image accepted shows fun image height width _ _ imageShows => ?_
  rw [resize?_of_plan planned height width]
  -- Blocks are planned only where they tile the source.
  rw [Area.plan?_eq_plan target.fits.height_pos target.fits.width_pos, Option.some.injEq] at planned
  obtain ⟨rows, columns⟩ := Area.tiles_of_plan planned
  exact Area.Blocks.exists_resize? imageShows target.extent (height.trans rows)
    (width.trans columns)

/-- Where the plan is to weight overlaps, the target shows what the cells of both axes give. -/
theorem exists_resize_overlaps (starts : Area.Share.StartsInside D)
    (accepted : checkChannels channels = .ok ())
    (planned : Area.plan? source.extent target.extent = some .overlaps)
    (shows : source.Shows sample) :
    ∃ written, resize .area source target = .ok (some written) ∧ written.layout = target.layout ∧
      written.Shows fun y x c => Area.Overlaps.value (fun row column => sample row column c)
        (Area.Share.cell D source.layout.height target.layout.height y)
        (Area.Share.cell D source.layout.width target.layout.width x) := by
  -- The source has rows and columns, so every destination has a cell.
  refine exists_resize_of_image accepted shows fun image height width tall wide imageShows => ?_
  rw [resize?_of_plan planned height width, ← height, ← width]
  exact Area.Overlaps.exists_resize? starts imageShows tall wide target.extent

/-- Where an axis grows, the target shows what the taps of both axes give. -/
theorem exists_resize_growth (accepted : checkChannels channels = .ok ())
    (planned : Area.plan? source.extent target.extent = some .growth)
    (shows : source.Shows sample) :
    ∃ written, resize .area source target = .ok (some written) ∧ written.layout = target.layout ∧
      written.Shows fun y x c => Tap.value sample
        (Area.Growth.tap D source.layout.height target.layout.height y)
        (Area.Growth.tap D source.layout.width target.layout.width x) c := by
  -- The source has rows and columns, so every destination has taps.
  refine exists_resize_of_image accepted shows fun image height width tall wide imageShows => ?_
  rw [resize?_of_plan planned height width, ← height, ← width]
  exact Area.Growth.exists_resize? imageShows tall wide target.extent

/-- Bilinear resizing shows what the taps of both axes give. -/
theorem exists_resize_linear (accepted : checkChannels channels = .ok ())
    (shows : source.Shows sample) :
    ∃ written, resize .linear source target = .ok (some written) ∧ written.layout = target.layout ∧
      written.Shows fun y x c => Tap.value sample
        (Linear.tap D source.layout.height target.layout.height y)
        (Linear.tap D source.layout.width target.layout.width x) c := by
  -- The taps depend on the two extents alone, and are in range for every accepted pair.
  refine exists_resize_of_image accepted shows fun image height width tall wide imageShows => ?_
  rw [← height, ← width]
  exact Linear.exists_resize? imageShows tall wide target.extent

/-- Copying shows the pixels of the source at the scaled positions. -/
theorem exists_resize_nearest (accepted : checkChannels channels = .ok ())
    (shows : source.Shows sample) :
    ∃ written, resize .nearest source target = .ok (some written) ∧
      written.layout = target.layout ∧
      written.Shows fun y x c => sample (Nearest.source source.layout.height target.layout.height y)
        (Nearest.source source.layout.width target.layout.width x) c := by
  -- The image read back has the extents of the source, so its sources are in range.
  refine exists_resize_of_image accepted shows fun image height width tall wide imageShows => ?_
  rw [← height, ← width]
  exact Nearest.exists_resize? imageShows tall wide target.extent

end Raster
