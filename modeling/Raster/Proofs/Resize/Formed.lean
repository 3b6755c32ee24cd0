import Raster.Proofs.Resize.Written

/-!
Resizing as a function of the samples of one channel.  Main statements: `exists_resize_formed`, an
accepted resize shows, channel by channel, what its mode forms from the samples of that channel, and
`exists_resize_of_formed_eq`, modes that form the same write the same.
-/

namespace Raster

variable {α S D : Type} [Scalar S] [Wide D S] [Element α S D]

/-- The sample that a mode forms at pixel `x` of row `y` from the samples of one channel. -/
def Resampling.formed (mode : Resampling) (source target : Extent) (sample : Nat → Nat → α)
    (y x : Nat) : α :=
  -- Each mode forms a sample from the same source by indices, taps, blocks or cells.
  match mode with
  | .nearest => sample (Nearest.source source.height target.height y)
      (Nearest.source source.width target.width x)
  | .linear => Tap.value (fun row column _ => sample row column)
      (Linear.tap D source.height target.height y) (Linear.tap D source.width target.width x) 0
  | .area =>
    match Area.plan source target with
    | .blocks across down =>
      Element.ofSingle (Area.Blocks.mean across down (Area.Blocks.block sample across down y x))
    | .overlaps => Area.Overlaps.value sample (Area.Share.cell D source.height target.height y)
        (Area.Share.cell D source.width target.width x)
    | .growth => Tap.value (fun row column _ => sample row column)
        (Area.Growth.tap D source.height target.height y)
        (Area.Growth.tap D source.width target.width x) 0

variable {channels : Nat} {sample : Nat → Nat → Nat → α}

/-- Resizing an image with rows and columns onto an extent that has some never faults and shows,
channel by channel, what the mode forms from that channel alone. -/
theorem Resampling.exists_resize? (starts : Area.Share.StartsInside D) (mode : Resampling)
    {image : Grid α channels} (shows : image.Shows sample) (tall : 0 < image.height)
    (wide : 0 < image.width) {target : Extent} (rows : 0 < target.height)
    (columns : 0 < target.width) :
    ∃ resized, mode.resize? image target = some resized ∧ resized.height = target.height ∧
      resized.width = target.width ∧ resized.Shows fun y x c =>
        mode.formed ⟨image.height, image.width⟩ target (fun row column => sample row column c)
          y x := by
  cases mode with
  | nearest => exact Nearest.exists_resize? shows tall wide target
  | linear => exact Linear.exists_resize? shows tall wide target
  | area =>
    -- Each plan has its own lemma, and the extents decide which plan is carried out.
    simp only [resize?, Area.resize?, Area.plan?_eq_plan rows columns, formed,
      Option.bind_eq_bind, Option.bind_some]
    cases chosen : Area.plan ⟨image.height, image.width⟩ target with
    | blocks across down =>
      obtain ⟨down, across⟩ := Area.tiles_of_plan chosen
      exact Area.Blocks.exists_resize? shows target down across
    | overlaps => exact Area.Overlaps.exists_resize? starts shows tall wide target
    | growth => exact Area.Growth.exists_resize? shows tall wide target

variable {source target : View α channels}

/-- An accepted resize shows, channel by channel, what its mode forms from that channel alone. -/
theorem exists_resize_formed (starts : Area.Share.StartsInside D) (mode : Resampling)
    (accepted : checkChannels channels = .ok ()) (shows : source.Shows sample) :
    ∃ written, resize mode source target = .ok (some written) ∧ written.layout = target.layout ∧
      written.Shows fun y x c => mode.formed source.extent target.extent
        (fun row column => sample row column c) y x := by
  -- The image that is loaded has the extent and the samples of the source.
  refine exists_resize_of_image accepted shows fun image height width tall wide imageShows => ?_
  have rows : 0 < target.extent.height := target.fits.height_pos
  have formed := mode.exists_resize? starts imageShows tall wide rows target.fits.width_pos
  rw [height, width] at formed
  exact formed

/-- Modes that form the same everywhere on a target write the same over it. -/
theorem exists_resize_of_formed_eq (starts : Area.Share.StartsInside D) {mode other : Resampling}
    (accepted : checkChannels channels = .ok ())
    (same : ∀ (sample : Nat → Nat → α) y x, y < target.layout.height → x < target.layout.width →
      mode.formed source.extent target.extent sample y x =
        other.formed source.extent target.extent sample y x) :
    ∃ written, resize mode source target = .ok (some written) ∧
      resize other source target = .ok (some written) := by
  obtain ⟨sample, visible⟩ := source.exists_shows
  obtain ⟨image, loaded, height, width, tall, wide, shows⟩ := visible.exists_load?
  have rows : 0 < target.extent.height := target.fits.height_pos
  have columns : 0 < target.extent.width := target.fits.width_pos
  obtain ⟨first, built, firstHeight, firstWidth, samples⟩ :=
    mode.exists_resize? starts shows tall wide rows columns
  obtain ⟨second, rebuilt, secondHeight, secondWidth, others⟩ :=
    other.exists_resize? starts shows tall wide rows columns
  -- An image is determined by its samples, and here both have the same ones.
  have alike : first = second := by
    refine samples.unique ?_ (firstHeight.trans secondHeight.symm)
      (firstWidth.trans secondWidth.symm)
    intro y x c inImage inRow inPixel
    rw [others y x c inImage inRow inPixel, height, width]
    exact congrArg some
      (same _ y x (inImage.trans_eq secondHeight) (inRow.trans_eq secondWidth)).symm
  obtain ⟨written, finished, -⟩ :=
    exists_resize_of_resize? accepted loaded built firstHeight firstWidth
  refine ⟨written, finished, ?_⟩
  rw [← finished]
  simp only [resize, loaded, built, rebuilt, alike, Option.bind_eq_bind, Option.bind_some]

end Raster
