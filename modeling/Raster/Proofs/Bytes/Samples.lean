import Raster.Bytes.Kernels
import Raster.Proofs.Launch.Finish

/-!
The whole samples in byte buffers.  Main statements: `Depth.spells_decode` and
`Depth.spells_encode`, the bytes of a sample are the digits of its number, where samples are read
and where they are written, `ByteImage.view_eq_ok_iff`, a described image is seen when its buffer
is aligned and the typed view of its whole samples can be made, and
`ByteImage.rewritten_withSamples`, storing samples keeps the bytes past the last whole one.
-/

namespace Raster

namespace Binary32

/-- Bytes that do not begin with four bytes hold no sample. -/
theorem decodeAll_of_short {bytes : List UInt8}
    (short : ∀ first second third fourth rest,
      bytes = first :: second :: third :: fourth :: rest → False) :
    bytes.length < 4 ∧ decodeAll bytes = [] := by
  -- Of the five shapes that a list can have, only the last begins with four bytes.
  match bytes with
  | [] => exact ⟨by simp, rfl⟩
  | [_] => exact ⟨by simp, rfl⟩
  | [_, _] => exact ⟨by simp, rfl⟩
  | [_, _, _] => exact ⟨by simp, rfl⟩
  | first :: second :: third :: fourth :: rest => exact (short _ _ _ _ _ rfl).elim

/-- Every four bytes make one sample. -/
theorem length_decodeAll (bytes : List UInt8) :
    (decodeAll bytes).length = bytes.length / 4 := by
  -- The induction takes four bytes at a time, as decoding does.
  induction bytes using decodeAll.induct with
  | case1 first second third fourth rest ih =>
    simp only [decodeAll, List.length_cons, ih]
    omega
  | case2 bytes short =>
    obtain ⟨few, empty⟩ := decodeAll_of_short short
    rw [empty, Nat.div_eq_of_lt few, List.length_nil]

/-- Decoding ends with the last four bytes that make a sample. -/
theorem decodeAll_take (bytes : List UInt8) :
    decodeAll (bytes.take (bytes.length / 4 * 4)) = decodeAll bytes := by
  -- As decoding does, the induction takes four bytes at a time until fewer are left.
  induction bytes using decodeAll.induct with
  | case1 first second third fourth rest ih =>
    have whole : (first :: second :: third :: fourth :: rest).length / 4 * 4 =
        rest.length / 4 * 4 + 4 := by
      simp only [List.length_cons]
      omega
    rw [whole]
    simp only [List.take_succ_cons, decodeAll, ih]
  | case2 bytes short =>
    obtain ⟨few, empty⟩ := decodeAll_of_short short
    rw [empty, Nat.div_eq_of_lt few, Nat.zero_mul, List.take_zero]
    rfl

/-- Every sample makes four bytes. -/
theorem length_flatMap_encode (samples : List Binary32) :
    (samples.flatMap encode).length = 4 * samples.length := by
  -- Four bytes come before those of the samples that are left.
  induction samples with
  | nil => rfl
  | cons sample rest ih =>
    rw [List.flatMap_cons, List.length_append, ih, List.length_cons, encode]
    simp only [List.length_cons, List.length_nil]
    omega

/-- Byte `k` of a sample is digit `k` of its bits to the base 256. -/
theorem digits_encode (sample : Binary32) : ∀ k < 4,
    sample.encode[k]? = some (UInt8.ofNat (sample.bits.toNat / 256 ^ k)) := by
  intro k inSample
  -- Dividing by a power of 256 is the shift by as many bytes that the encoding makes.
  have shifted : UInt8.ofNat (sample.bits.toNat / 256 ^ k) =
      (sample.bits >>> UInt32.ofNat (8 * k)).toUInt8 := by
    rw [← UInt8.toNat_inj, UInt32.toNat_toUInt8, UInt8.toNat_ofNat', UInt32.toNat_shiftRight,
      UInt32.toNat_ofNat', Nat.mod_eq_of_lt (by omega : 8 * k < 2 ^ 32),
      Nat.mod_eq_of_lt (by omega : 8 * k < 32), Nat.shiftRight_eq_div_pow, Nat.pow_mul]
  rw [shifted]
  match k, inSample with
  | 0, _ => simp [encode]
  | 1, _ => rfl
  | 2, _ => rfl
  | 3, _ => rfl

/-- The number of four bytes, of which the later count 256 times as much as those before. -/
theorem toNat_ofBytes (first second third fourth : UInt8) :
    (ofBytes first second third fourth).bits.toNat =
      first.toNat + 256 * (second.toNat + 256 * (third.toNat + 256 * fourth.toNat)) := by
  have lowest := first.toNat_lt
  have low := second.toNat_lt
  have high := third.toNat_lt
  have highest := fourth.toNat_lt
  simp only [ofBytes, UInt32.toNat_or, UInt32.toNat_shiftLeft, UInt8.toNat_toUInt32,
    Nat.shiftLeft_eq, UInt32.reduceToNat, Nat.reduceMod]
  -- No shifted byte leaves the word, and each lies above the bits of the bytes before it.
  rw [Nat.mod_eq_of_lt (by omega), Nat.mod_eq_of_lt (by omega), Nat.mod_eq_of_lt (by omega)]
  rw [Nat.or_comm first.toNat, Nat.mul_comm second.toNat, ← Nat.two_pow_add_eq_or_of_lt lowest]
  rw [Nat.or_comm _ (third.toNat * 2 ^ 16), Nat.mul_comm third.toNat,
    ← Nat.two_pow_add_eq_or_of_lt (by omega)]
  rw [Nat.or_comm _ (fourth.toNat * 2 ^ 24), Nat.mul_comm fourth.toNat,
    ← Nat.two_pow_add_eq_or_of_lt (by omega)]
  omega

/-- Byte `k` of four is digit `k` of the sample that they make up. -/
theorem digits_ofBytes (first second third fourth : UInt8) : ∀ k < 4,
    [first, second, third, fourth][k]? =
      some (UInt8.ofNat ((ofBytes first second third fourth).bits.toNat / 256 ^ k)) := by
  intro k inSample
  have lowest := first.toNat_lt
  have low := second.toNat_lt
  have high := third.toNat_lt
  have highest := fourth.toNat_lt
  rw [toNat_ofBytes]
  -- Dividing by a power of 256 drops the bytes below the one that is sought.
  interval_cases k <;>
    simp only [List.getElem?_cons_zero, List.getElem?_cons_succ, Option.some.injEq,
      ← UInt8.toNat_inj, UInt8.toNat_ofNat'] <;>
    omega

end Binary32

namespace Depth

/-- As many samples are decoded as there are whole ones. -/
theorem length_decode (depth : Depth) (bytes : List UInt8) :
    (depth.decode bytes).length = bytes.length / depth.size := by
  -- A byte is its own sample.
  cases depth with
  | byte => exact (Nat.div_one bytes.length).symm
  | single => exact Binary32.length_decodeAll bytes

/-- Bytes past the last whole sample are not decoded. -/
theorem decode_take (depth : Depth) (bytes : List UInt8) :
    depth.decode (bytes.take (bytes.length / depth.size * depth.size)) = depth.decode bytes := by
  -- Every byte is a whole sample, and singles end where the last four bytes do.
  cases depth with
  | byte =>
    show bytes.take (bytes.length / 1 * 1) = bytes
    rw [Nat.div_one, Nat.mul_one, List.take_length]
  | single => exact Binary32.decodeAll_take bytes

/-- Each sample takes as many bytes as its depth says. -/
theorem length_encode (depth : Depth) (samples : List depth.Sample) :
    (depth.encode samples).length = depth.size * samples.length := by
  -- A byte takes one byte, and a single four.
  cases depth with
  | byte => exact (Nat.one_mul samples.length).symm
  | single => exact Binary32.length_flatMap_encode samples

/-- A sample as a number: a byte is one, and a single has its bits. -/
def number : (depth : Depth) → depth.Sample → Nat
  | .byte, sample => sample.toNat
  | .single, sample => sample.bits.toNat

/-- Bytes spell samples when the bytes of each, in their order, are the digits of its number to the
base 256, the lowest first. -/
def Spells (depth : Depth) (bytes : List UInt8) (samples : List depth.Sample) : Prop :=
  ∀ i (inSamples : i < samples.length) k, k < depth.size →
    bytes[depth.size * i + k]? = some (UInt8.ofNat (depth.number samples[i] / 256 ^ k))

/-- Bytes spell themselves. -/
theorem spells_bytes (bytes rest : List UInt8) : Depth.byte.Spells (bytes ++ rest) bytes := by
  intro i inSamples k inSample
  -- A byte has one digit, itself.
  obtain rfl : k = 0 := Nat.lt_one_iff.mp inSample
  have place : Depth.byte.size * i + 0 = i := by simp [size, sampleType, SampleType.size]
  rw [place, List.getElem?_append_left inSamples, List.getElem?_eq_getElem inSamples, Nat.pow_zero,
    Nat.div_one]
  simp [number]

/-- Singles after one more are spelled one place further on. -/
theorem spells_cons {first second third fourth : UInt8} {bytes : List UInt8} {sample : Binary32}
    {samples : List Binary32}
    (digits : ∀ k < 4, [first, second, third, fourth][k]? =
      some (UInt8.ofNat (sample.bits.toNat / 256 ^ k)))
    (spelled : Depth.single.Spells bytes samples) :
    Depth.single.Spells (first :: second :: third :: fourth :: bytes) (sample :: samples) := by
  -- The first sample has the new bytes, and every other one its own, four places on.
  intro i inSamples k inSample
  have four : Depth.single.size = 4 := rfl
  rw [four] at inSample ⊢
  cases i with
  | zero =>
    have own := digits k inSample
    match k, inSample with
    | 0, _ => exact own
    | 1, _ => exact own
    | 2, _ => exact own
    | 3, _ => exact own
  | succ i =>
    have later := spelled i (Nat.succ_lt_succ_iff.mp inSamples) k inSample
    have place : 4 * (i + 1) + k = 4 * i + k + 4 := by omega
    rw [place]
    exact later

/-- Bytes spell the whole samples that are read from them. -/
theorem spells_decode (depth : Depth) (bytes : List UInt8) :
    depth.Spells bytes (depth.decode bytes) := by
  cases depth with
  | byte =>
    have own := spells_bytes bytes []
    rwa [List.append_nil] at own
  | single =>
    show Depth.single.Spells bytes (Binary32.decodeAll bytes)
    induction bytes using Binary32.decodeAll.induct with
    | case1 first second third fourth rest ih =>
      exact spells_cons (Binary32.digits_ofBytes first second third fourth) ih
    | case2 bytes short =>
      -- Fewer than four bytes hold no sample to spell.
      have empty : Binary32.decodeAll bytes = [] := (Binary32.decodeAll_of_short short).2
      rw [empty]
      exact fun _ inSamples => nomatch inSamples

/-- The bytes of samples spell them, whatever comes after. -/
theorem spells_encode (depth : Depth) (samples : List depth.Sample) (rest : List UInt8) :
    depth.Spells (depth.encode samples ++ rest) samples := by
  -- Singles are spelled one after another, in the order of their bytes.
  cases depth with
  | byte => exact spells_bytes samples rest
  | single =>
    show Depth.single.Spells (samples.flatMap Binary32.encode ++ rest) samples
    induction samples with
    | nil => exact fun _ inSamples => nomatch inSamples
    | cons sample samples ih =>
      exact spells_cons sample.digits_encode ih

end Depth

namespace ByteImage

/-- The whole samples that the buffer holds. -/
def samples (image : ByteImage) (depth : Depth) : Array depth.Sample :=
  (depth.decode image.bytes).toArray

/-- The buffer starts at an address that samples of the depth may start at. -/
def Aligned (image : ByteImage) (depth : Depth) : Prop :=
  image.address % depth.size = 0

/-- The typed view of the whole samples, with the height, width and stride of the descriptor. -/
def typed (image : ByteImage) (depth : Depth) (channels : Nat) :
    Except Refusal (View depth.Sample channels) :=
  View.make channels image.descriptor.layout (image.samples depth)

/-- The image with other whole samples: its bytes spell them, and past the last of them nothing has
changed. -/
structure Rewritten (image : ByteImage) (depth : Depth) (samples : Array depth.Sample)
    (after : ByteImage) : Prop where
  -- The format and the place of the buffer are not written to.
  descriptor : after.descriptor = image.descriptor
  address : after.address = image.address
  length : after.bytes.length = image.bytes.length
  size : samples.size = image.bytes.length / depth.size
  -- Together with the size this gives every byte up to the end of the last sample.
  spelled : depth.Spells after.bytes samples.toList
  spare : ∀ place, depth.size * samples.size ≤ place → after.bytes[place]? = image.bytes[place]?

variable {image : ByteImage} {depth : Depth} {channels : Nat} {view : View depth.Sample channels}

/-- The buffer holds as many samples as fit into it whole. -/
theorem size_samples (image : ByteImage) (depth : Depth) :
    (image.samples depth).size = image.bytes.length / depth.size := by
  rw [samples, List.size_toArray, Depth.length_decode]

/-- An image is seen exactly when its buffer is aligned and its typed view can be made. -/
theorem view_eq_ok_iff :
    image.view depth channels = .ok view ↔
      image.Aligned depth ∧ image.typed depth channels = .ok view := by
  constructor
  · intro seen
    obtain ⟨length, checked, seen⟩ := judged seen
    obtain ⟨_, -, same⟩ := judged checked
    cases same
    by_cases aligned : image.address % depth.size = 0
    · refine ⟨aligned, ?_⟩
      simp only [aligned, ne_eq, not_true_eq_false, if_false] at seen
      rw [typed, samples, ← Depth.decode_take]
      exact seen
    · simp only [aligned, ne_eq, not_false_eq_true, if_true] at seen
      cases seen
  · rintro ⟨aligned, made⟩
    -- A view that can be made has passed the check of its descriptor.
    have checked := (View.of_make made).1
    rw [size_samples] at checked
    rw [typed, samples, ← Depth.decode_take] at made
    refine judged_iff.mpr ⟨_, judged_iff.mpr ⟨(), checked, rfl⟩, ?_⟩
    have address : image.address % depth.size = 0 := aligned
    simp only [address, ne_eq, not_true_eq_false, if_false]
    exact made

/-- Storing as many samples as the image has rewrites it. -/
theorem rewritten_withSamples {data : Array depth.Sample}
    (size : data.size = (image.samples depth).size) :
    image.Rewritten depth data { image with bytes := image.withSamples depth data } := by
  rw [size_samples] at size
  have encoded : (depth.encode data.toList).length = depth.size * data.size := by
    rw [Depth.length_encode, Array.length_toList]
  have within : depth.size * data.size ≤ image.bytes.length := by
    rw [size]
    exact Nat.mul_div_le image.bytes.length depth.size
  refine ⟨rfl, rfl, ?_, size, Depth.spells_encode depth data.toList _, ?_⟩
  · -- The bytes of the samples take the place of as many others.
    simp only [withSamples, List.length_append, List.length_drop, encoded]
    omega
  · intro place past
    simp only [withSamples]
    rw [List.getElem?_append_right (by omega), List.getElem?_drop, encoded,
      Nat.add_sub_of_le past]

end ByteImage

end Raster
