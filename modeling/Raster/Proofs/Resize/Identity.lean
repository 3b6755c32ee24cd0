import Raster.Proofs.Resize.BlockMean
import Raster.Proofs.Resize.Centres
import Raster.Proofs.Resize.Duplicates
import Raster.Proofs.Resize.Formed

/-!
Resizing to the same extent.  Main statement: `resize_same_extent`, every mode gives the image that
it is given.
-/

namespace Raster

open Binary

namespace Nearest

/-- On an axis of at most `2 ^ 32` samples that keeps its size, every destination copies its own
sample. -/
theorem source_same {size d : Nat} (inside : d < size) (short : size ≤ 2 ^ 32) :
    source size size d = d := by
  -- The largest product is that of the last destination, which is still a word.
  have word : d * size < wordLimit := by
    have product := Nat.mul_le_mul (show d ≤ 2 ^ 32 - 1 by omega) short
    exact Nat.lt_of_le_of_lt product (by decide)
  rw [source_eq_of_lt word, Nat.mul_div_cancel d (Nat.zero_lt_of_lt inside)]

end Nearest

namespace Area.Blocks

/-- A block of one sample is that sample. -/
theorem block_one {α : Type} (sample : Nat → Nat → α) (y x : Nat) :
    block sample 1 1 y x = [sample y x] := by
  simp [block, positions]

/-- The mean of a finite sample alone is that sample. -/
theorem same_mean_one {depth : Depth} {sample : depth.Sample} (finite : depth.Finite sample) :
    depth.Same (Element.ofSingle (mean 1 1 [sample] : Float32)) sample := by
  obtain ⟨q, read⟩ := finite.exists_reads
  have held : nearest32 q = q := Denotes.nearest_eq read
  have moderate : |nearest32 q| < 2 ^ 128 :=
    held.symm ▸ read.abs_le_largest.trans_lt (by norm_num [largest32])
  have inverse : Reads (Scalar.one / Scalar.ofNat (1 * 1) : Float32) 1 := by
    have one : reciprocal 1 = 1 := by simpa using reciprocal_two_pow (k := 0) (by norm_num)
    exact one ▸ reads_reciprocal one_pos
  -- Neither the sum that starts at zero nor the product with one is rounded.
  have sum := reads_zero.add read (by rwa [zero_add])
  rw [zero_add, held] at sum
  have product := sum.mul inverse (by rwa [mul_one])
  rw [mul_one q, held] at product
  exact Depth.same_ofSingle product read

end Area.Blocks

/-- What is copied is the sample itself; what is computed is the same number, and the same byte. -/
def Resampling.Reproduces (mode : Resampling) (depth : Depth) (stored original : depth.Sample) :
    Prop :=
  match mode with
  -- Nearest copies the stored sample: signs of zero and payloads of NaN are kept.
  | .nearest => stored = original
  | .linear | .area => depth.Same stored original

/-- The most samples that an axis may have for every destination of a mode to find its own sample:
words scale the positions that are copied, and doubles place the centres that are blended. -/
def Resampling.axisLimit? : Resampling → Option Nat
  -- The products of the index table are words up to here.
  | .nearest => some (2 ^ 32)
  -- Past it, not every centre of a sample is a double.
  | .linear => some (2 ^ 52)
  | .area => none

variable {depth : Depth} {channels : Nat}

/-- Onto its own extent every mode forms the sample that stands there. -/
theorem Resampling.reproduces_formed (mode : Resampling) {extent : Extent}
    {sample : Nat → Nat → depth.Sample}
    (finite : mode ≠ .nearest → ∀ y x, y < extent.height → x < extent.width →
      depth.Finite (sample y x))
    (short : ∀ limit ∈ mode.axisLimit?, extent.height ≤ limit ∧ extent.width ≤ limit) {y x : Nat}
    (inImage : y < extent.height) (inRow : x < extent.width) :
    mode.Reproduces depth (mode.formed extent extent sample y x) (sample y x) := by
  have tall := Nat.zero_lt_of_lt inImage
  have wide := Nat.zero_lt_of_lt inRow
  cases mode with
  | nearest =>
    obtain ⟨high, long⟩ := short _ rfl
    show sample (Nearest.source _ _ y) (Nearest.source _ _ x) = sample y x
    rw [Nearest.source_same inImage high, Nearest.source_same inRow long]
  | linear =>
    -- Each axis takes its own sample, and the one after it has no share.
    obtain ⟨high, long⟩ := short _ rfl
    obtain ⟨rowOwn, rowIdle⟩ := Linear.tap_same inImage high
    obtain ⟨columnOwn, columnIdle⟩ := Linear.tap_same inRow long
    have kept := Tap.same_value_of_idle (fun y x _ => sample y x) 0 (finite (by decide))
      (Linear.tap_inside tall) (Linear.tap_inside wide) rowIdle columnIdle
    rwa [rowOwn, columnOwn] at kept
  | area =>
    -- Blocks of one sample tile the source.
    show depth.Same (formed .area extent extent sample y x) (sample y x)
    simp only [formed, Area.plan_of_tiles tall wide (Nat.mul_one _).symm (Nat.mul_one _).symm
      ⟨one_pos, one_pos⟩, Area.Blocks.block_one]
    exact Area.Blocks.same_mean_one (finite (by decide) y x inImage inRow)

variable {source target : View depth.Sample channels} {sample : Nat → Nat → Nat → depth.Sample}

/-- Resizing to the extent of the source gives every sample of the source again, on axes of no more
samples than the mode can tell apart. -/
theorem resize_same_extent (mode : Resampling) (accepted : checkChannels channels = .ok ())
    (same : target.extent = source.extent) (shows : source.Shows sample)
    (finite : mode ≠ .nearest → ∀ y x c, y < source.layout.height → x < source.layout.width →
      c < channels → depth.Finite (sample y x c))
    (short : ∀ limit ∈ mode.axisLimit?,
      source.layout.height ≤ limit ∧ source.layout.width ≤ limit) :
    ∃ written, resize mode source target = .ok (some written) ∧ written.layout = target.layout ∧
      ∀ y x c, y < target.layout.height → x < target.layout.width → c < channels →
        ∃ stored, written.sample? y x c = some stored ∧
          mode.Reproduces depth stored (sample y x c) := by
  obtain ⟨written, finished, layout, values⟩ :=
    exists_resize_formed Area.Share.startsInside_float mode accepted shows
  -- The image formed on an equal extent is the source's, sample by sample.
  refine ⟨written, finished, layout, fun y x c inImage inRow inPixel => ?_⟩
  refine ⟨_, values y x c (layout ▸ inImage) (layout ▸ inRow) inPixel, ?_⟩
  have height : target.layout.height = source.layout.height := congrArg Extent.height same
  have width : target.layout.width = source.layout.width := congrArg Extent.width same
  rw [same]
  exact mode.reproduces_formed
    (fun computed y x inImage inRow => finite computed y x c inImage inRow inPixel) short
    (inImage.trans_eq height) (inRow.trans_eq width)

/-- A row of two numbers, the first a negative zero. -/
def signedRow : View Binary32 1 :=
  ⟨⟨1, 2, 2⟩, #[⟨0x80000000⟩, ⟨0x40490fdb⟩], Layout.check_eq_ok_iff.mp rfl⟩

/-- Room for two numbers in a longer row. -/
def longerRow : View Binary32 1 :=
  ⟨⟨1, 2, 3⟩, Array.replicate 3 ⟨0⟩, Layout.check_eq_ok_iff.mp rfl⟩

/-- The row shows its two numbers. -/
theorem signedRow_shows :
    signedRow.Shows fun _ x _ => if x = 0 then ⟨0x80000000⟩ else ⟨0x40490fdb⟩ :=
  View.shows_of_row rfl (by decide)

/-- Blending two numbers onto their own extent gives the same two numbers. -/
theorem resize_same_extent_signedRow :
    checkChannels 1 = .ok () ∧ longerRow.extent = signedRow.extent ∧
    signedRow.layout.height ≤ 2 ^ 52 ∧ signedRow.layout.width ≤ 2 ^ 52 ∧
    ∃ written first second, resize .linear signedRow longerRow = .ok (some written) ∧
      written.sample? 0 0 0 = some first ∧ written.sample? 0 1 0 = some second ∧
      SameNumber first.toSingle (Float32.ofBits 0x80000000) ∧
      SameNumber second.toSingle (Float32.ofBits 0x40490fdb) := by
  -- Minus zero is finite, and comes back as a zero.
  have finite : ∀ y x c, y < signedRow.layout.height → x < signedRow.layout.width → c < 1 →
      Depth.Finite .single (if x = 0 then ⟨0x80000000⟩ else ⟨0x40490fdb⟩) := by
    intro y x c _ inRow _
    match x, inRow with
    | 0, _ => exact (by decide +kernel : (Float32.ofBits 0x80000000).isFinite = true)
    | 1, _ => exact (by decide +kernel : (Float32.ofBits 0x40490fdb).isFinite = true)
  have high : signedRow.layout.height ≤ 2 ^ 52 := by decide
  have long : signedRow.layout.width ≤ 2 ^ 52 := by decide
  -- Both bounds of the linear mode are those of the row.
  obtain ⟨written, finished, -, values⟩ := @resize_same_extent .single 1 signedRow longerRow _
    .linear rfl rfl signedRow_shows (fun _ => finite) (by
      rintro _ ⟨⟩
      exact ⟨high, long⟩)
  obtain ⟨first, readFirst, sameFirst⟩ := values 0 0 0 (by decide) (by decide) (by decide)
  obtain ⟨second, readSecond, sameSecond⟩ := values 0 1 0 (by decide) (by decide) (by decide)
  exact ⟨rfl, rfl, high, long, written, first, second, finished, readFirst, readSecond, sameFirst,
    sameSecond⟩

/-- A row of one byte more than words can copy. -/
theorem copiedRow_packs : View.Packs ⟨1, 2 ^ 32 + 1⟩ 1 :=
  ⟨by decide, by decide, by decide, by decide⟩

/-- A row of one byte more than doubles can place. -/
theorem blendedRow_packs : View.Packs ⟨1, 2 ^ 52 + 1⟩ 1 :=
  ⟨by decide, by decide, by decide, by decide⟩

/-- On axes of one sample more the last sample is lost: a copy takes the first one instead, since
the product wraps, and a blend takes as much of the one before, since the centre is rounded. -/
theorem resize_same_extent_longRows :
    (∃ written, resize .nearest (View.brightColumn copiedRow_packs (2 ^ 32))
        (View.brightColumn copiedRow_packs (2 ^ 32)) = .ok (some written) ∧
      (View.brightColumn copiedRow_packs (2 ^ 32)).sample? 0 (2 ^ 32) 0 = some 255 ∧
      written.sample? 0 (2 ^ 32) 0 = some 0) ∧
    ∃ written, resize .linear (View.brightColumn blendedRow_packs (2 ^ 52))
        (View.brightColumn blendedRow_packs (2 ^ 52)) = .ok (some written) ∧
      (View.brightColumn blendedRow_packs (2 ^ 52)).sample? 0 (2 ^ 52) 0 = some 255 ∧
      written.sample? 0 (2 ^ 52) 0 = some 128 := by
  have copied := View.packed_shows copiedRow_packs
    fun _ x _ => if x = 2 ^ 32 then (255 : UInt8) else 0
  have blended := View.packed_shows blendedRow_packs
    fun _ x _ => if x = 2 ^ 52 then (255 : UInt8) else 0
  constructor
  · obtain ⟨written, finished, layout, values⟩ : ∃ written, resize .nearest _
        (View.brightColumn copiedRow_packs (2 ^ 32)) = .ok (some written) ∧ _ :=
      exists_resize_nearest rfl copied
    refine ⟨written, finished, copied 0 (2 ^ 32) 0 (by decide) (by decide) (by decide), ?_⟩
    rw [values 0 (2 ^ 32) 0 (by rw [layout]; decide) (by rw [layout]; decide) (by decide)]
    -- The product is one word too large, so nothing of it is left.
    have first : Nearest.source (2 ^ 32 + 1) (2 ^ 32 + 1) (2 ^ 32) = 0 := by decide +kernel
    show some (if Nearest.source (2 ^ 32 + 1) (2 ^ 32 + 1) (2 ^ 32) = 2 ^ 32 then _ else _) = _
    rw [first]
    rfl
  · obtain ⟨written, finished, layout, values⟩ : ∃ written, resize .linear _
        (View.brightColumn blendedRow_packs (2 ^ 52)) = .ok (some written) ∧ _ :=
      exists_resize_linear rfl blended
    refine ⟨written, finished, blended 0 (2 ^ 52) 0 (by decide) (by decide) (by decide), ?_⟩
    rw [values 0 (2 ^ 52) 0 (by rw [layout]; decide) (by rw [layout]; decide) (by decide)]
    -- The centre of the last destination is rounded onto the edge between the last two samples.
    have mixed : Tap.value (fun _ x _ => if x = 2 ^ 52 then (255 : UInt8) else 0)
        (Linear.tap Float 1 1 0) (Linear.tap Float (2 ^ 52 + 1) (2 ^ 52 + 1) (2 ^ 52)) 0 = 128 := by
      decide +kernel
    exact congrArg some mixed

end Raster
