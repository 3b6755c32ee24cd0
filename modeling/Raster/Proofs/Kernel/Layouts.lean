import Raster.Proofs.Kernel.Transform

/-!
Images and their layouts.  Main statement: `kernels_ignore_layout`, strides, padding, spare samples
and what a target held before have no part in the result of a kernel.
-/

namespace Raster

/-- Two runs end alike: refused for the same reason, or finished with related results. -/
def Alike {β γ : Type} (related : β → γ → Prop) :
    Except Refusal (Option β) → Except Refusal (Option γ) → Prop
  | .ok (some result), .ok (some other) => related result other
  | .error reason, .error other => reason = other
  -- A run that faults is like no other, itself included.
  | _, _ => False

section

variable {α : Type} [Element α Float32 Float] {channels limit : Nat}
variable {source other target place : View α channels}

/-- A refusal is like itself. -/
theorem Alike.refused {β γ : Type} {related : β → γ → Prop} (reason : Refusal) :
    Alike related (.error reason) (.error reason) := by
  rfl

/-- A kernel that writes tells neither sources of one image nor targets of one extent apart. -/
theorem Writer.run_alike (writer : Writer) (same : source.SameImage other)
    (extents : target.extent = place.extent) :
    Alike View.SameImage (writer.run source target) (writer.run other place) := by
  rw [run_eq, run_eq, ← same.extent, ← extents]
  cases passed : writer.judge channels source.extent target.extent with
  | error reason => exact Alike.refused reason
  | ok _ =>
    -- Both runs pass the same judgements, and then they write one image.
    obtain ⟨written, again, finished, finishedAgain, visible⟩ :=
      (writer.fills passed).transform?_alike same extents
    simp only [Except.map, finished, finishedAgain]
    exact visible

/-- A norm over at least one group ends like itself: it is refused, or it finishes. -/
theorem norm_alike_self (kind : NormKind) (positive : 0 < limit) (source : View α channels)
    (mask : Option (View UInt8 1)) :
    Alike Eq (norm kind limit source mask) (norm kind limit source mask) := by
  -- A norm that is not refused has a number, and a number is equal to itself.
  cases accepted : norm kind limit source mask with
  | error reason => exact Alike.refused reason
  | ok outcome =>
    obtain ⟨value, rfl⟩ := norm_finishes positive accepted
    rfl

/-- Sources of one image have the same norm. -/
theorem norm_alike (kind : NormKind) (positive : 0 < limit) (same : source.SameImage other) :
    Alike Eq (norm kind limit source none) (norm kind limit other none) := by
  -- The norm looks at the loaded image alone, and both views load the same one.
  have equal : norm kind limit source none = norm kind limit other none := by
    simp only [norm, same.load?_eq]
  rw [equal]
  exact norm_alike_self kind positive other none

/-- Sources of one image have the same norm under masks of one image. -/
theorem masked_norm_alike (kind : NormKind) (positive : 0 < limit) (same : source.SameImage other)
    {mask cover : View UInt8 1} (marks : mask.SameImage cover) :
    Alike Eq (norm kind limit source (some mask)) (norm kind limit other (some cover)) := by
  -- Mask and image are both loaded, and only their extents are compared before.
  have equal : norm kind limit source (some mask) = norm kind limit other (some cover) := by
    simp only [norm, same.load?_eq, marks.load?_eq, same.extent, marks.extent]
  rw [equal]
  exact norm_alike_self kind positive other (some cover)

end

/--
No kernel depends on how its views lie in their buffers.

Two sources that show one image are read alike by rows and by pixels, and every kernel ends alike on
them: the same refusal, the same visible samples in targets of one extent, or the same norm.
-/
theorem kernels_ignore_layout (depth : Depth) {channels limit : Nat} (positive : 0 < limit)
    {source other target place : View depth.Sample channels} (same : source.SameImage other)
    (extents : target.extent = place.extent) :
    (∀ y, y < source.layout.height → source.row? y = other.row? y ∧
      ∀ x, x < source.layout.width → source.pixel? y x = other.pixel? y x) ∧
    (∀ mode, Alike View.SameImage (resize mode source target) (resize mode other place)) ∧
    (∀ window, Alike View.SameImage (boxFilter window source target)
      (boxFilter window other place)) ∧
    (∀ kind, Alike Eq (norm kind limit source none) (norm kind limit other none)) ∧
    ∀ kind mask cover, View.SameImage mask cover →
      Alike Eq (norm kind limit source (some mask)) (norm kind limit other (some cover)) := by
  -- Each kernel reads by one of the routes and by no other.
  refine ⟨?_, ?_, ?_, ?_, ?_⟩
  · intro y inImage
    refine ⟨same.row?_eq inImage, ?_⟩
    intro x inRow
    exact same.pixel?_eq inImage inRow
  · intro mode
    exact (Writer.resize mode).run_alike same extents
  · intro window
    exact (Writer.boxFilter window).run_alike same extents
  · intro kind
    exact norm_alike kind positive same
  · intro kind mask cover marks
    exact masked_norm_alike kind positive same marks

/-- Two by two bytes in four places. -/
def tightRows : View Depth.byte.Sample 1 :=
  ⟨⟨2, 2, 2⟩, #[10, 20, 30, 40], Layout.check_eq_ok_iff.mp rfl⟩

/-- The same two by two bytes with padding after the first row and a spare byte at the end. -/
def paddedRows : View Depth.byte.Sample 1 :=
  ⟨⟨2, 2, 3⟩, #[10, 20, 99, 30, 40, 7], Layout.check_eq_ok_iff.mp rfl⟩

/-- The bytes in the tight and in the padded rows are one image. -/
theorem tightRows_sameImage : tightRows.SameImage paddedRows := by
  -- There are four visible bytes, which are compared one by one.
  have samples : ∀ y, y < 2 → ∀ x, x < 2 → ∀ c, c < 1 →
      tightRows.sample? y x c = paddedRows.sample? y x c := by decide
  refine ⟨rfl, ?_⟩
  intro y x c inImage inRow inPixel
  exact samples y inImage x inRow c inPixel

/-- Padding between rows changes neither a resized image nor a masked norm. -/
theorem kernels_ignore_layout_padding :
    Alike View.SameImage (resize .area tightRows onePixel) (resize .area paddedRows onePixel) ∧
      Alike View.SameImage (boxFilter ⟨3, 3, true, .reflect⟩ tightRows tightRows)
        (boxFilter ⟨3, 3, true, .reflect⟩ paddedRows paddedRows) ∧
      Alike Eq (norm .l2 2 tightRows (some tightRows))
        (norm .l2 2 paddedRows (some paddedRows)) := by
  -- The resized image has one pixel and the filtered one as many as before.
  have groups : 0 < 2 := by decide
  have single : onePixel.extent = onePixel.extent := rfl
  have double : tightRows.extent = paddedRows.extent := rfl
  obtain ⟨-, resizes, -⟩ := kernels_ignore_layout .byte groups tightRows_sameImage single
  obtain ⟨-, -, filters, -, norms⟩ :=
    kernels_ignore_layout .byte groups tightRows_sameImage double
  exact ⟨resizes .area, filters _, norms .l2 _ _ tightRows_sameImage⟩

end Raster
