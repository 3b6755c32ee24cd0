import Raster.Launch
import Raster.Proofs.Box.Sums
import Raster.Proofs.Norm.Groups
import Raster.Proofs.Resize.Formed

/-!
Accepted kernels finish.  Main statements: `accepted_finish`, a kernel that accepts its views never
faults, and `Job.exists_run_norm`, the job of a norm runs to its end when its regions were judged.
-/

namespace Raster

/-- A count is accepted when kernels process it, and then there is at least one channel. -/
theorem channels_pos {channels : Nat} (accepted : checkChannels channels = .ok ()) :
    0 < channels := by
  -- The processed counts are one, three and four.
  unfold checkChannels at accepted
  split at accepted
  · rename_i member
    simp only [supportedChannels, List.mem_cons, List.not_mem_nil, or_false] at member
    omega
  · cases accepted

/-- When several judgements are passed, the first one is, and the others are on what it gives. -/
theorem judged {α β : Type} {first : Except Refusal α} {rest : α → Except Refusal β} {value : β}
    (accepted : first >>= rest = .ok value) :
    ∃ given, first = .ok given ∧ rest given = .ok value := by
  -- A refusal would be the outcome of the whole.
  cases first with
  | error refusal => cases accepted
  | ok given => exact ⟨given, rfl, accepted⟩

/-- Judgements passed one after another are all passed. -/
theorem judged_iff {α β : Type} {first : Except Refusal α} {rest : α → Except Refusal β}
    {value : β} :
    first >>= rest = .ok value ↔ ∃ given, first = .ok given ∧ rest given = .ok value := by
  -- The first part is the inversion, and passing both in turn is the second.
  constructor
  · exact judged
  · rintro ⟨given, passed, accepted⟩
    rw [passed]
    exact accepted

/-- Extents are accepted when they are the same. -/
theorem eq_of_checkExtent {expected actual : Extent}
    (accepted : checkExtent expected actual = .ok ()) : expected = actual := by
  unfold checkExtent at accepted
  -- Another extent would have been refused.
  split at accepted
  · assumption
  · cases accepted

/-- Filtering one accepted view onto another of its extent finishes and shows the scaled window sums
of the source, channel by channel. -/
theorem exists_boxFilter_shows {α S D : Type} [Scalar S] [Wide D S] [Element α S D]
    {channels : Nat} {sample : Nat → Nat → Nat → α} (window : BoxWindow)
    {source target : View α channels} (shows : source.Shows sample)
    (accepted : checkChannels channels = .ok ()) (same : source.extent = target.extent) :
    ∃ written, boxFilter window source target = .ok (some written) ∧
      written.layout = target.layout ∧
      written.Shows fun y x c => Element.ofDouble (window.scaled (window.sumAt source.layout.height
        source.layout.width (fun line column => sample line column c) y x)) := by
  -- The result has the extent of the source, which is that of the target.
  obtain ⟨image, loaded, height, width, tall, wide, imageShows⟩ := shows.exists_load?
  obtain ⟨filtered, built, sameHeight, sameWidth, filteredShows⟩ :=
    window.exists_filter? imageShows tall wide
  have heights : source.layout.height = target.layout.height := congrArg Extent.height same
  have widths : source.layout.width = target.layout.width := congrArg Extent.width same
  obtain ⟨written, stored, layout, -, visible, -⟩ := target.exists_store? filtered
    (by rw [sameHeight, height, heights]) (by rw [sameWidth, width, widths])
  have extents : checkExtent source.extent target.extent = .ok () := if_pos same
  refine ⟨written, ?_, layout, ?_⟩
  · simp only [boxFilter, accepted, extents, loaded, built, stored, Option.bind_eq_bind,
      Option.bind_some]
    rfl
  · intro y x c inImage inRow inPixel
    rw [layout] at inImage inRow
    rw [visible y x c inImage inRow inPixel, ← height, ← width]
    exact filteredShows y x c (by omega) (by omega) inPixel

section Kernels

variable {α : Type} [Element α Float32 Float] {channels : Nat}

/-- Resizing one accepted view onto another finishes. -/
theorem exists_resize (mode : Resampling) (source target : View α channels)
    (accepted : checkChannels channels = .ok ()) :
    ∃ written, resize mode source target = .ok (some written) := by
  -- Some function shows the samples, and resizing forms its samples from them.
  obtain ⟨sample, visible⟩ := source.exists_shows
  obtain ⟨written, finished, -⟩ :=
    exists_resize_formed Area.Share.startsInside_float mode accepted visible
  exact ⟨written, finished⟩

/-- Filtering one accepted view onto another of its extent finishes. -/
theorem exists_boxFilter (window : BoxWindow) (source target : View α channels)
    (accepted : checkChannels channels = .ok ()) (same : source.extent = target.extent) :
    ∃ written, boxFilter window source target = .ok (some written) := by
  -- The sums under the window are formed from samples that are there.
  obtain ⟨sample, visible⟩ := source.exists_shows
  obtain ⟨written, finished, -⟩ := exists_boxFilter_shows window visible accepted same
  exact ⟨written, finished⟩

/-- The norm of an accepted view, under a mask of its extent if any, finishes. -/
theorem exists_norm (kind : NormKind) {limit : Nat} (positive : 0 < limit)
    (source : View α channels) (mask : Option (View UInt8 1))
    (accepted : checkChannels channels = .ok ())
    (masked : ∀ marks ∈ mask, source.extent = marks.extent) :
    ∃ value, norm kind limit source mask = .ok (some value) := by
  -- A mask has the rows of the image that it selects from.
  obtain ⟨sample, visible⟩ := source.exists_shows
  obtain ⟨image, loaded, height, width, tall, wide, shows⟩ := visible.exists_load?
  cases mask with
  | none =>
    obtain ⟨value, found⟩ : ∃ value, kind.norm? image none limit = some value :=
      NormKind.exists_norm? kind (fun _ absent => by cases absent) tall positive
    refine ⟨value, ?_⟩
    simp only [norm, accepted, loaded, found, Option.bind_eq_bind, Option.bind_some]
    rfl
  | some mask =>
    have same := masked mask rfl
    obtain ⟨_, seen⟩ := mask.exists_shows
    obtain ⟨marks, marked, markHeight, -⟩ := seen.exists_load?
    have heights : source.layout.height = mask.layout.height := congrArg Extent.height same
    obtain ⟨value, found⟩ : ∃ value, kind.norm? image (some marks) limit = some value :=
      NormKind.exists_norm? kind (fun other held => by
        rw [← Option.some.inj held, markHeight, height, heights]) tall positive
    have extents : checkExtent source.extent mask.extent = .ok () := if_pos same
    refine ⟨value, ?_⟩
    simp only [norm, accepted, extents, loaded, marked, found, Option.bind_eq_bind,
      Option.bind_some]
    rfl

/-- A norm that is not refused finishes. -/
theorem norm_finishes {kind : NormKind} {limit : Nat} (positive : 0 < limit)
    {source : View α channels} {mask : Option (View UInt8 1)} {outcome : Option Float}
    (accepted : norm kind limit source mask = .ok outcome) : ∃ value, outcome = some value := by
  -- A norm that is not refused has passed both judgements.
  obtain ⟨_, supported, rest⟩ := judged accepted
  have masked : ∀ marks ∈ mask, source.extent = marks.extent := by
    intro marks held
    cases held
    obtain ⟨_, extents, -⟩ := judged rest
    exact eq_of_checkExtent extents
  obtain ⟨value, finished⟩ := exists_norm kind positive source mask supported masked
  rw [finished, Except.ok.injEq] at accepted
  exact ⟨value, accepted.symm⟩

end Kernels

/-- The divisors, chunk lengths and table places of the kernels that no partial read stands for. -/
structure Grounded {α : Type} {channels : Nat} (source target : View α channels) : Prop where
  /-- Pixels, rows and strides have samples, so cutting a buffer into them goes on. -/
  pixel_pos : 0 < channels
  row_pos : 0 < source.layout.rowLength channels
  stride_pos : 0 < target.layout.stride
  /-- Positions are scaled by quotients of sizes, and none of the sizes is zero. -/
  sizes_pos : 0 < source.layout.height ∧ 0 < source.layout.width ∧
    0 < target.layout.height ∧ 0 < target.layout.width
  /-- Windows are counted in whole periods, and the index holds a period from each of its starts. -/
  periods : ∀ length ∈ [source.layout.height, source.layout.width], ∀ size border,
    ∀ period ∈ (WindowAxis.make length size border).period?,
      0 < period ∧ 2 * period ≤ (WindowAxis.make length size border).index.length
  /-- Row sums are kept for as many destinations as the target has columns. -/
  destinations : ∀ shares, Area.Share.table? Float source.layout.width target.layout.width =
    some shares → ∀ share ∈ shares, share.destination < target.layout.width

/-- The period of an axis is positive, and the index of the axis holds it twice. -/
theorem WindowAxis.period_bounds {length size period : Nat} {border : Border}
    (periodic : period ∈ (make length size border).period?) (positive : 0 < length) :
    0 < period ∧ 2 * period ≤ (make length size border).index.length := by
  -- The index of a periodic axis is a table over two of its periods.
  have found : periodOf length border = some period := periodic
  refine ⟨(periodOf_bounds positive found).1, ?_⟩
  simp only [make, found, Border.table, List.length_map, List.length_range]
  exact Nat.le_refl _

/-- Any two accepted views of a count of channels that is processed ground the kernels. -/
theorem grounded {α : Type} {channels : Nat} (source target : View α channels)
    (accepted : checkChannels channels = .ok ()) : Grounded source target where
  pixel_pos := channels_pos accepted
  row_pos := Nat.mul_pos source.fits.width_pos (channels_pos accepted)
  stride_pos := Nat.lt_of_lt_of_le
    (Nat.mul_pos target.fits.width_pos (channels_pos accepted)) target.fits.rowLength_le
  sizes_pos := ⟨source.fits.height_pos, source.fits.width_pos, target.fits.height_pos,
    target.fits.width_pos⟩
  periods length member size border period periodic := by
    -- The axis is a side of the source, and no side of an accepted view is zero.
    refine WindowAxis.period_bounds periodic ?_
    have height := source.fits.height_pos
    have width := source.fits.width_pos
    simp only [List.mem_cons, List.not_mem_nil, or_false] at member
    omega
  destinations shares built share member := by
    -- The table that the kernel forms is the one whose destinations are known to lie on the axis.
    have table : Area.Share.table? Float source.layout.width target.layout.width =
        some (Area.Share.table Float source.layout.width target.layout.width) :=
      Area.Share.table?_eq_table Area.Share.startsInside_float source.fits.width_pos
    rw [table, Option.some.injEq] at built
    subst built
    exact (Area.Share.mem_table source.fits.width_pos member).1

/--
No kernel that accepts its views faults.

Every read, difference and quotient that a kernel can take has its place, whatever the samples are.
-/
theorem accepted_finish (depth : Depth) {channels : Nat}
    (source target : View depth.Sample channels) :
    (∀ mode outcome, resize mode source target = .ok outcome →
      Grounded source target ∧ ∃ written, outcome = some written) ∧
    (∀ window outcome, boxFilter window source target = .ok outcome →
      Grounded source target ∧ ∃ written, outcome = some written) ∧
    (∀ kind limit mask outcome, 0 < limit → norm kind limit source mask = .ok outcome →
      Grounded source source ∧ ∃ value, outcome = some value) := by
  -- A kernel is accepted after its judgements, and what passes them has a finishing run.
  refine ⟨fun mode outcome accepted => ?_, fun window outcome accepted => ?_,
    fun kind limit mask outcome positive accepted => ?_⟩
  · obtain ⟨_, supported, -⟩ := judged accepted
    obtain ⟨written, finished⟩ := exists_resize mode source target supported
    rw [finished, Except.ok.injEq] at accepted
    exact ⟨grounded source target supported, written, accepted.symm⟩
  · obtain ⟨_, supported, extents⟩ := judged accepted
    obtain ⟨_, same, -⟩ := judged extents
    obtain ⟨written, finished⟩ :=
      exists_boxFilter window source target supported (eq_of_checkExtent same)
    rw [finished, Except.ok.injEq] at accepted
    exact ⟨grounded source target supported, written, accepted.symm⟩
  · obtain ⟨_, supported, extents⟩ := judged accepted
    have masked : ∀ marks ∈ mask, source.extent = marks.extent := by
      intro marks held
      cases held
      obtain ⟨_, same, -⟩ := judged extents
      exact eq_of_checkExtent same
    obtain ⟨value, finished⟩ := exists_norm kind positive source mask supported masked
    rw [finished, Except.ok.injEq] at accepted
    exact ⟨grounded source source supported, value, accepted.symm⟩

/-- Three rows of five bytes, two bytes apart, the last of which ends the buffer. -/
def shortLastRow : View Depth.byte.Sample 1 :=
  ⟨⟨3, 5, 7⟩, #[1, 2, 3, 4, 5, 99, 99, 10, 20, 30, 40, 50, 99, 99, 5, 4, 3, 2, 1],
    Layout.check_eq_ok_iff.mp rfl⟩

/-- Two rows of three bytes with a byte between them. -/
def smallerRows : View Depth.byte.Sample 1 :=
  ⟨⟨2, 3, 4⟩, #[0, 0, 0, 77, 0, 0, 0], Layout.check_eq_ok_iff.mp rfl⟩

/-- Marks of five pixels in three rows. -/
def fiveMarks : View UInt8 1 :=
  ⟨⟨3, 5, 6⟩, #[1, 0, 0, 0, 0, 9, 0, 1, 0, 1, 0, 9, 7, 0, 0, 0, 2], Layout.check_eq_ok_iff.mp rfl⟩

/-- On rows that lie apart, with a short last one, the kernels finish where the image shrinks by
fractions, where an even window is larger than the image and where groups share marked rows. -/
theorem accepted_finish_shortLastRow : 0 < 2 ∧
    (∃ written, resize .area shortLastRow smallerRows = .ok (some written) ∧
      written.data = #[6, 12, 18, 77, 8, 12, 16]) ∧
    (∃ written, boxFilter ⟨10, 6, true, .standard⟩ shortLastRow shortLastRow = .ok (some written) ∧
      written.data =
        #[18, 18, 17, 16, 15, 99, 99, 18, 18, 17, 16, 15, 99, 99, 18, 18, 17, 16, 15]) ∧
    norm .l1 2 shortLastRow (some fiveMarks) = .ok (some 67) := by
  obtain ⟨resizes, -, -⟩ := accepted_finish .byte shortLastRow smallerRows
  obtain ⟨-, filters, norms⟩ := accepted_finish .byte shortLastRow shortLastRow
  obtain ⟨-, resized, first⟩ := resizes .area _ rfl
  obtain ⟨-, filtered, second⟩ := filters ⟨10, 6, true, .standard⟩ _ rfl
  obtain ⟨-, value, third⟩ := norms .l1 2 (some fiveMarks) _ (by decide) rfl
  -- Each outcome is there, and evaluating the kernel shows what it is.
  have small : (settled (resize .area shortLastRow smallerRows)).map (·.data) =
      some #[6, 12, 18, 77, 8, 12, 16] := by decide +kernel
  have smooth :
      (settled (boxFilter ⟨10, 6, true, .standard⟩ shortLastRow shortLastRow)).map (·.data) =
        some #[18, 18, 17, 16, 15, 99, 99, 18, 18, 17, 16, 15, 99, 99, 18, 18, 17, 16, 15] := by
    decide +kernel
  have total : settled (norm .l1 2 shortLastRow (some fiveMarks)) = some 67 := by decide +kernel
  have resizing : resize .area shortLastRow smallerRows = .ok (some resized) :=
    congrArg Except.ok first
  have filtering : boxFilter ⟨10, 6, true, .standard⟩ shortLastRow shortLastRow =
      .ok (some filtered) := congrArg Except.ok second
  have norming : norm .l1 2 shortLastRow (some fiveMarks) = .ok (some value) :=
    congrArg Except.ok third
  rw [resizing] at small
  rw [filtering] at smooth
  rw [norming] at total
  refine ⟨by decide, ⟨resized, resizing, Option.some.inj small⟩,
    ⟨filtered, filtering, Option.some.inj smooth⟩, ?_⟩
  rw [norming]
  exact congrArg Except.ok total

/-- Reading a buffer at a depth gives as many samples as it is said to have. -/
theorem Buffer.size_samplesAt (buffer : Buffer) (depth : Depth) :
    (buffer.samplesAt depth).size = buffer.length depth := by
  -- A buffer of another depth has no samples of this one.
  obtain ⟨own, samples⟩ := buffer
  by_cases same : own = depth
  · subst same
    simp [samplesAt, length]
  · simp [samplesAt, length, same]

/-- A region that was judged by the lengths of the buffers is a view of the buffers themselves. -/
theorem Region.exists_view {region : Region} {memory : Memory} {depth : Depth} {channels : Nat}
    (accepted : region.check memory.lengths depth channels = .ok ()) :
    ∃ view, region.view memory depth channels = .ok view ∧ view.extent = region.extent := by
  -- The part of the buffer behind the offset has the length that was judged.
  have size : (region.part memory depth).size =
      memory.lengths region.buffer depth - region.offset := by
    simp [part, Memory.lengths, Buffer.size_samplesAt]
  have fits : (region.layout channels).check channels (region.part memory depth).size = .ok () := by
    rw [size]
    exact accepted
  refine ⟨⟨region.layout channels, region.part memory depth, Layout.check_eq_ok_iff.mp fits⟩,
    ?_, ?_⟩
  · unfold view View.make
    split
    · rename_i refusal refused
      rw [fits] at refused
      cases refused
    · rfl
  · simp only [View.extent, layout, Layout.ofStride, extent]
    split <;> rfl

/-- A norm job runs to its end when its regions were judged and the mask has the image's extent. -/
theorem Job.exists_run_norm {depth : Depth} {channels limit slot : Nat} {kind : NormKind}
    {source : Region} {mask : Option Region} {memory : Memory} (positive : 0 < limit)
    (first : source.check memory.lengths depth channels = .ok ())
    (second : ∀ region ∈ mask, region.check memory.lengths .byte 1 = .ok ())
    (supported : checkChannels channels = .ok ())
    (masked : ∀ region ∈ mask, source.extent = region.extent) :
    ∃ after, (norm depth channels kind source mask slot).run limit memory = some after := by
  -- The job sees the image and the mask that were judged when it was launched.
  obtain ⟨sourceView, seen, sourceExtent⟩ := Region.exists_view first
  cases mask with
  | none =>
    obtain ⟨value, finished⟩ := exists_norm kind positive sourceView none supported
      fun _ held => nomatch held
    refine ⟨memory.setNorm slot value, ?_⟩
    simp only [run, seen]
    show (settled (Raster.norm kind limit sourceView none)).bind _ = _
    rw [finished]
    rfl
  | some region =>
    obtain ⟨marks, held, marksExtent⟩ := Region.exists_view (second region rfl)
    obtain ⟨value, finished⟩ := exists_norm kind positive sourceView (some marks) supported
      fun other same => by
        cases same
        rw [sourceExtent, marksExtent, masked region rfl]
    refine ⟨memory.setNorm slot value, ?_⟩
    simp only [run, seen, held]
    show (settled (Raster.norm kind limit sourceView (some marks))).bind _ = _
    rw [finished]
    rfl

end Raster
