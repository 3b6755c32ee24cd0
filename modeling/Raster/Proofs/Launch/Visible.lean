import Raster.Proofs.Launch.Footprint

/-!
What a kernel writes.  Main statement: `accepted_write_visible`, an accepted kernel writes every
visible sample of its target, with a value that the target's old content does not decide, and it
writes nothing else.
-/

namespace Raster

namespace Writer

variable {depth : Depth} {channels limit : Nat} {source target : Region} {memory other : Memory}

/-- A writer's job on judged regions runs; it overwrites the target region, and in memories that
agree on the source it leaves the same visible samples there. -/
theorem exists_run_job (writer : Writer)
    (first : source.check memory.lengths depth channels = .ok ())
    (second : target.check memory.lengths depth channels = .ok ())
    (passed : writer.judge channels source.extent target.extent = .ok ()) (limit : Nat) :
    ∃ after, (writer.job depth channels source target).run limit memory = some after ∧
      after.Overwrites memory target depth channels ∧
      ∀ other, other.lengths = memory.lengths →
        other.buffer source.buffer = memory.buffer source.buffer →
        ∃ again, (writer.job depth channels source target).run limit other = some again ∧
          ∀ place, target.Holds channels place →
            ((after.buffer target.buffer).samplesAt depth)[place]? =
              ((again.buffer target.buffer).samplesAt depth)[place]? := by
  -- The job sees the views that were judged, so its kernel is not refused.
  obtain ⟨sourceView, seen, sourceExtent⟩ := Region.exists_view first
  obtain ⟨targetView, held, targetExtent⟩ := Region.exists_view second
  obtain ⟨outcome, accepted⟩ : ∃ outcome, writer.run sourceView targetView = .ok outcome := by
    rw [run_eq, sourceExtent, targetExtent, passed]
    exact ⟨_, rfl⟩
  obtain ⟨written, rfl, left, alike⟩ := overwrites accepted
  refine ⟨target.write memory written, ?_, Region.write_overwrites held left, ?_⟩
  · exact Job.run_of_written seen held accepted limit
  · intro other lengths same
    -- In the other memory the source is seen as here, and the target with its layout.
    rw [← lengths] at second
    obtain ⟨otherView, heldAgain, otherExtent⟩ := Region.exists_view second
    obtain ⟨again, acceptedAgain, visible⟩ :=
      alike otherView (by rw [otherExtent, targetExtent])
    obtain ⟨_, finished, right, -⟩ := overwrites acceptedAgain
    cases finished
    have layout : written.layout = target.layout channels := by
      rw [left.layout, (Region.view_eq_ok held).1]
    have layoutAgain : again.layout = target.layout channels := by
      rw [right.layout, (Region.view_eq_ok heldAgain).1]
    refine ⟨target.write other again, ?_, ?_⟩
    · rw [← Region.view_congr same.symm] at seen
      exact Job.run_of_written seen heldAgain acceptedAgain limit
    · intro place holds
      obtain ⟨inner, inLayout, rfl⟩ := Region.holds_iff.mp holds
      rw [Region.getElem?_write held, Region.getElem?_write heldAgain]
      apply visible.getElem?_eq
      · rw [layout, layoutAgain]
      · rw [layout]
        exact inLayout

end Writer

/--
Kernels write every visible sample of their target and nothing else.

Whatever the target held before, the visible samples are the same after an accepted kernel, and
all else is as it was: padding and spare samples of a view, and, when a kernel is launched on
regions, what lies before the region's offset, the other buffers and the norms.
-/
theorem accepted_write_visible (depth : Depth) {channels : Nat} :
    (∀ (writer : Writer) (source target : View depth.Sample channels) outcome,
      writer.run source target = .ok outcome →
      ∃ written, outcome = some written ∧ written.Overwrites target ∧
        ∀ place, place.layout = target.layout → ∃ again,
          writer.run source place = .ok (some again) ∧
          ∀ i, target.layout.Holds channels i → written.data[i]? = again.data[i]?) ∧
    ∀ launch source target, Launch.Writes depth channels source target launch →
      ∀ (memory : Memory) slot job, launch.accept memory.lengths slot = .ok job →
      ∀ limit, ∃ after, job.run limit memory = some after ∧
        after.Overwrites memory target depth channels ∧
        ∀ other, other.lengths = memory.lengths →
          other.buffer source.buffer = memory.buffer source.buffer →
          ∃ again, job.run limit other = some again ∧ ∀ i, target.Holds channels i →
            ((after.buffer target.buffer).samplesAt depth)[i]? =
              ((again.buffer target.buffer).samplesAt depth)[i]? := by
  constructor
  · -- For views the visible samples of the target do not depend on what is stored in it.
    intro writer source target outcome accepted
    obtain ⟨written, finished, left, alike⟩ := Writer.overwrites accepted
    refine ⟨written, finished, left, ?_⟩
    -- Another target of the same layout has the same extent and is written the same image.
    intro place layout
    obtain ⟨again, acceptedAgain, visible⟩ := alike place (by rw [View.extent, View.extent, layout])
    obtain ⟨_, same, right, -⟩ := Writer.overwrites acceptedAgain
    cases same
    refine ⟨again, acceptedAgain, ?_⟩
    intro i held
    apply visible.getElem?_eq
    · rw [left.layout, right.layout, layout]
    · rw [left.layout]
      exact held
  · -- A launch has the job of its writer, whose views are regions of the buffers.
    intro launch source target writes memory slot job accepted limit
    obtain ⟨writer, rfl, first, second, passed⟩ := writes.exists_writer accepted
    exact writer.exists_run_job first second passed limit

/-- Every buffer holds the same seven bytes. -/
def sevenBytes : Memory := ⟨fun _ => ⟨.byte, #[1, 2, 3, 4, 5, 6, 7]⟩, fun _ => 0⟩

/-- Two by two bytes that start behind the first byte, with one byte of padding after the first
row. -/
def framedRegion : Region := ⟨"target", 1, 2, 2, some 3⟩

/-- Two by three bytes from the start of their buffer on. -/
def wideRegion : Region := ⟨"source", 0, 2, 3, none⟩

/-- Resizing onto the framed region keeps the first byte, the padding and the last byte. -/
theorem accepted_write_visible_framed :
    (∃ written, resize .area onePixel onePixel = .ok (some written) ∧
      written.Overwrites onePixel) ∧
    ∃ after, (Job.resize .byte 1 .linear wideRegion framedRegion).run 1 sevenBytes =
        some after ∧ after.Overwrites sevenBytes framedRegion .byte 1 ∧
      ∀ i ∈ [0, 3, 6], ((after.buffer "target").samplesAt .byte)[i]? =
        ((sevenBytes.buffer "target").samplesAt .byte)[i]? := by
  obtain ⟨views, launches⟩ := @accepted_write_visible .byte 1
  obtain ⟨written, finished, left, -⟩ := views (.resize .area) onePixel onePixel _ rfl
  obtain ⟨after, run, kept, -⟩ :=
    launches _ wideRegion framedRegion (.resize .linear) sevenBytes 0 _ rfl 1
  refine ⟨⟨written, congrArg Except.ok finished, left⟩, after, run, kept, ?_⟩
  intro i member
  apply kept.rest
  -- Visible places are one and two, and four and five.
  rintro ⟨y, k, inImage, inRow, same⟩
  simp only [framedRegion, Region.layout, Layout.ofStride] at inImage inRow same
  simp only [List.mem_cons, List.not_mem_nil, or_false] at member
  omega

end Raster
