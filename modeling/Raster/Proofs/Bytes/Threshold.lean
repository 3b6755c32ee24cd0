import Mathlib.Algebra.Group.Nat.Defs
import Raster.Bytes.Descriptor.Word

/-!
The bytes that an image needs and the buffers that are accepted for it.  Main statement:
`requiredBytes_threshold`, the size that a descriptor reports is its true size or the largest word,
and a buffer is accepted for a sound descriptor exactly when it has that many bytes.
-/

namespace Raster

/-- A sum of saturated sizes saturates as the sum of the sizes does. -/
theorem saturate_add (first second : Nat) :
    saturate (saturate first + saturate second) = saturate (first + second) := by
  -- Once a part is at the largest word, so is the sum.
  unfold saturate
  omega

/-- A multiple of a saturated size saturates as the multiple of the size does. -/
theorem saturate_mul (size : Nat) {factor : Nat} (positive : 0 < factor) :
    saturate (saturate size * factor) = saturate (size * factor) := by
  unfold saturate
  rcases Nat.le_total size (wordLimit - 1) with short | long
  · rw [Nat.min_eq_left short]
  · -- A size that saturates is a word too many, and so is every multiple of it.
    have most : wordLimit - 1 ≤ (wordLimit - 1) * factor := Nat.le_mul_of_pos_right _ positive
    have whole : size ≤ size * factor := Nat.le_mul_of_pos_right _ positive
    rw [Nat.min_eq_right long, Nat.min_eq_right most, Nat.min_eq_right (Nat.le_trans long whole)]

namespace Descriptor

/-- The least bytes that hold the image, in whole numbers. -/
def wholeBytes (descriptor : Descriptor) : Nat :=
  if descriptor.height = 0 then 0
  else descriptor.layout.required descriptor.channels * descriptor.type.size

variable {descriptor : Descriptor} {depth : Depth} {channels byteLength length : Nat}

/-- Saturating at every step is saturating the true size. -/
theorem requiredBytes_eq_saturate (descriptor : Descriptor) :
    descriptor.requiredBytes = saturate descriptor.wholeBytes := by
  unfold requiredBytes wholeBytes
  split
  · rfl
  · -- The samples saturate as their true number, and so do their bytes.
    dsimp only
    rw [saturate_add, saturate_mul _ descriptor.type.size_pos]
    rfl

/-- A buffer is accepted exactly when its whole samples hold the layout. -/
theorem checkedLength_eq_ok_iff :
    descriptor.checkedLength depth channels byteLength = .ok length ↔
      descriptor.layout.Fits channels (byteLength / depth.size) ∧
        length = byteLength / depth.size * depth.size := by
  -- The only judgement is that of the layout, by the samples that the bytes hold.
  unfold checkedLength
  rw [← Layout.check_eq_ok_iff]
  dsimp only
  cases descriptor.layout.check channels (byteLength / depth.size) with
  | error refusal => exact ⟨nofun, fun ⟨accepted, _⟩ => nomatch accepted⟩
  | ok _ =>
    exact ⟨fun same => ⟨rfl, (Except.ok.inj same).symm⟩,
      fun ⟨_, same⟩ => congrArg Except.ok same.symm⟩

/-- Whole samples hold a layout exactly when it is sound and the buffer has its bytes.  A row that a
word cannot count is longer than any stride, and so it needs no condition of its own. -/
theorem fits_div_iff (descriptor : Descriptor) (named : descriptor.type = depth.sampleType)
    (stride : descriptor.stride < wordLimit) :
    descriptor.layout.Fits descriptor.channels (byteLength / depth.size) ↔
      1 ≤ descriptor.height ∧ 1 ≤ descriptor.width ∧
        descriptor.width * descriptor.channels ≤ descriptor.stride ∧
        depth.size ≤ byteLength ∧ descriptor.wholeBytes ≤ byteLength := by
  have positive : 0 < depth.size := depth.sampleType.size_pos
  -- Samples are counted by a floor, which a whole number of samples does not notice.
  have filled : 0 < byteLength / depth.size ↔ depth.size ≤ byteLength :=
    Nat.div_pos_iff.trans ⟨fun ⟨_, held⟩ => held, fun held => ⟨positive, held⟩⟩
  have held : descriptor.layout.required descriptor.channels ≤ byteLength / depth.size ↔
      descriptor.layout.required descriptor.channels * depth.size ≤ byteLength :=
    Nat.le_div_iff_mul_le positive
  have size : descriptor.type.size = depth.size := by rw [named]; rfl
  constructor
  · intro fits
    have tall : descriptor.height ≠ 0 := Nat.pos_iff_ne_zero.mp fits.height_pos
    refine ⟨fits.height_pos, fits.width_pos, fits.rowLength_le, filled.mp fits.length_pos, ?_⟩
    rw [wholeBytes, if_neg tall, size]
    exact held.mp fits.required_le
  · rintro ⟨tall, wide, short, one, whole⟩
    rw [wholeBytes, if_neg (Nat.pos_iff_ne_zero.mp tall), size] at whole
    exact ⟨tall, wide, Nat.lt_of_le_of_lt short stride, short, filled.mpr one, held.mpr whole⟩

/-- A packed descriptor whose row is longer than any word is accepted for no buffer. -/
theorem exists_refusal_packed (type : SampleType) {channels height width : Nat}
    (long : wordLimit ≤ width * channels) (depth : Depth) (byteLength : Nat) :
    ∃ refusal, (packed type channels height width).checkedLength depth channels byteLength =
      .error refusal := by
  cases judged : (packed type channels height width).checkedLength depth channels byteLength with
  | error refusal => exact ⟨refusal, rfl⟩
  | ok length =>
    -- The stride of such a descriptor is a word and its row is not.
    have row : width * channels < wordLimit := (checkedLength_eq_ok_iff.mp judged).1.rowLength_lt
    omega

/-- For all words, the bytes that a descriptor reports are its true size or the largest word; and a
buffer that a program can have is accepted, with the bytes of its whole samples, exactly when the
extent is not empty, the stride holds a row, and the buffer holds a sample and the reported bytes.
A packed descriptor whose row is longer than any word is always refused. -/
theorem requiredBytes_threshold (depth : Depth) (channels height width stride : UInt64)
    (byteLength : Nat) (bound : byteLength < 2 ^ 63) :
    let descriptor : Descriptor :=
      ⟨depth.sampleType, channels.toNat, height.toNat, width.toNat, stride.toNat⟩
    let packed := Descriptor.packed depth.sampleType channels.toNat height.toNat width.toNat
    let size := if height.toNat = 0 then 0 else
      ((height.toNat - 1) * stride.toNat + width.toNat * channels.toNat) * depth.size
    descriptor.requiredBytes = min size (2 ^ 64 - 1) ∧
    descriptor.checkedLengthWord depth channels.toNat byteLength =
      descriptor.checkedLength depth channels.toNat byteLength ∧
    (∀ length, descriptor.checkedLengthWord depth channels.toNat byteLength = .ok length ↔
      (1 ≤ height.toNat ∧ 1 ≤ width.toNat ∧ width.toNat * channels.toNat ≤ stride.toNat ∧
        depth.size ≤ byteLength ∧ descriptor.requiredBytes ≤ byteLength) ∧
      length = byteLength / depth.size * depth.size) ∧
    (2 ^ 64 ≤ width.toNat * channels.toNat →
      ∃ refusal, packed.checkedLengthWord depth channels.toNat byteLength = .error refusal) := by
  intro descriptor packed size
  have limit : wordLimit = 2 ^ 64 := rfl
  have word : byteLength < wordLimit := by omega
  have reported : descriptor.requiredBytes = min size (2 ^ 64 - 1) :=
    requiredBytes_eq_saturate descriptor
  refine ⟨reported, checkedLengthWord_eq_checkedLength _ _ _ word, fun length => ?_, fun long => ?_⟩
  · -- No buffer has the largest word for its length, so saturation does not move the threshold.
    have threshold :
        descriptor.wholeBytes ≤ byteLength ↔ descriptor.requiredBytes ≤ byteLength := by
      have whole : descriptor.wholeBytes = size := rfl
      rw [reported, whole]
      omega
    rw [checkedLengthWord_eq_checkedLength _ _ _ word, checkedLength_eq_ok_iff, ← threshold]
    exact and_congr_left' (fits_div_iff descriptor rfl stride.toNat_lt)
  · rw [checkedLengthWord_eq_checkedLength _ _ _ word]
    exact exists_refusal_packed depth.sampleType long depth byteLength

/-- Two padded rows of three pixels take 76 bytes, and a buffer of one byte more holds them. -/
theorem requiredBytes_twoRows :
    77 < 2 ^ 63 ∧ (⟨.f32, 3, 2, 3, 10⟩ : Descriptor).requiredBytes = 76 ∧
      (⟨.f32, 3, 2, 3, 10⟩ : Descriptor).checkedLengthWord .single 3 77 = .ok 76 := by
  have threshold := requiredBytes_threshold .single 3 2 3 10 77 (by decide)
  exact ⟨by decide, threshold.1, (threshold.2.2.1 76).mpr (by decide)⟩

end Descriptor

end Raster
