import Raster.Proofs.Resize.BlockMean
import Raster.Proofs.Resize.Centres
import Raster.Proofs.Resize.Mixing
import Raster.Proofs.Resize.Transpose

/-!
Halving both axes.  Main statement: `resize_half`, blending and averaging areas write the same over
a target of half the source's extent.
-/

namespace Raster

open Binary

namespace Tap

variable {v x y : Float32} {m n j : Nat}

/-- Two numbers with few digits are mixed in equal shares without rounding. -/
theorem reads_mix_half (half : Reads v (1 / 2)) (first : Reads x (m / 2 ^ j))
    (second : Reads y (n / 2 ^ j)) (short : m + n < 2 ^ 24) (places : j < 149) :
    Reads (mix v x y) ((m + n : Nat) / 2 ^ (j + 1)) := by
  -- Both products with a half and their sum have one binary place more and no more digits.
  have rest : Reads (Scalar.one - v) ((1 : Nat) / 2 ^ 1) :=
    reads_div_two_pow (by norm_num) (by norm_num) (by norm_num) (reads_one.sub half)
  have low : Reads (x * (Scalar.one - v)) (m / 2 ^ (j + 1)) :=
    reads_div_two_pow (by push_cast; ring) (by omega) places (first.mul rest)
  have high : Reads (y * v) (n / 2 ^ (j + 1)) :=
    reads_div_two_pow (by ring) (by omega) places (second.mul half)
  exact reads_div_two_pow (by push_cast; ring) short places (low.add high)

/-- Four bytes are blended in equal shares without rounding. -/
theorem reads_blend_half {w : Float32} (rows : Reads v (1 / 2)) (columns : Reads w (1 / 2))
    (a b c d : UInt8) :
    Reads (blend v w a b c d) ((a.toNat + b.toNat + (c.toNat + d.toNat) : Nat) / 4) := by
  have read : ∀ byte : UInt8, Reads (Element.toSingle byte : Float32) (byte.toNat / 2 ^ 0) := by
    intro byte
    rw [pow_zero, div_one]
    exact reads_toFloat32 byte
  -- The sum of four bytes has at most ten digits.
  have := a.toNat_lt
  have := b.toNat_lt
  have := c.toNat_lt
  have := d.toNat_lt
  have upper := reads_mix_half columns (read a) (read b) (by omega) (by norm_num)
  have lower := reads_mix_half columns (read c) (read d) (by omega) (by norm_num)
  have mixed := reads_mix_half rows upper lower (by omega) (by norm_num)
  norm_num at mixed
  norm_num
  exact mixed

end Tap

namespace Area.Blocks

/-- A block of two rows of two samples. -/
theorem block_two {α : Type} (sample : Nat → Nat → α) (y x : Nat) : block sample 2 2 y x =
    [sample (2 * y) (2 * x), sample (2 * y) (2 * x + 1),
      sample (2 * y + 1) (2 * x), sample (2 * y + 1) (2 * x + 1)] := by
  -- The block is listed row by row.
  rw [Nat.mul_comm 2, Nat.mul_comm 2]
  rfl

/-- Four bytes blended in equal shares are stored as their mean is. -/
theorem ofSingle_blend_half {v w : Float32} (rows : Reads v (1 / 2)) (columns : Reads w (1 / 2))
    (a b c d : UInt8) : (Element.ofSingle (Tap.blend v w a b c d) : UInt8) =
      Element.ofSingle (mean 2 2 [a, b, c, d] : Float32) := by
  -- Neither way is the mean of the four rounded before it is stored.
  have blended := Tap.reads_blend_half rows columns a b c d
  have averaged : Reads (mean 2 2 [a, b, c, d] : Float32) (singleMean [a, b, c, d]) :=
    reads_mean rfl four_pos
  have unrounded : singleMean [a, b, c, d] =
      (a.toNat + b.toNat + (c.toNat + d.toNat) : Nat) / 4 := by
    rw [singleMean_eq_exactMean (k := 2) rfl (by norm_num), exactMean]
    simp only [List.map_cons, List.map_nil, List.sum_cons, List.sum_nil, List.length_cons,
      List.length_nil]
    push_cast
    ring
  rw [unrounded] at averaged
  exact Byte.ofSingle_congr blended averaged

end Area.Blocks

namespace Resampling

variable {source target : Extent} {y x : Nat}

/-- Halved axes are averaged in blocks of two rows of two samples. -/
theorem formed_area_half {α S D : Type} [Scalar S] [Wide D S] [Element α S D]
    (halves : target.Halves source) (sample : Nat → Nat → α) (inImage : y < target.height)
    (inRow : x < target.width) : formed .area source target sample y x =
      Element.ofSingle (Area.Blocks.mean 2 2
        [sample (2 * y) (2 * x), sample (2 * y) (2 * x + 1),
          sample (2 * y + 1) (2 * x), sample (2 * y + 1) (2 * x + 1)]) := by
  -- Two samples a destination on either axis are blocks of four.
  have planned := Area.plan_of_tiles (Nat.zero_lt_of_lt inImage) (Nat.zero_lt_of_lt inRow)
    halves.rows halves.columns ⟨two_pos, two_pos⟩
  simp only [formed, planned, Area.Blocks.block_two]

/-- In exact arithmetic blending onto half the extent forms what averaging does. -/
theorem formed_half_rat {α : Type} [Element α ℚ ℚ] (halves : target.Halves source)
    (sample : Nat → Nat → α) (inImage : y < target.height) (inRow : x < target.width) :
    formed .linear source target sample y x = formed .area source target sample y x := by
  rw [formed_area_half halves sample inImage inRow, Area.Blocks.mean_rat]
  -- Both weigh the same four samples by a quarter.
  simp only [formed, halves.rows, halves.columns, Linear.tap_half_rat inImage,
    Linear.tap_half_rat inRow, Tap.value, Tap.blend, Tap.mix_rat, List.map_cons, List.map_nil,
    List.sum_cons, List.sum_nil]
  apply congrArg
  push_cast
  ring

/-- On axes of at most `2 ^ 52` samples blending bytes onto half the extent forms what averaging
does. -/
theorem formed_half_byte (halves : target.Halves source)
    (short : source.height ≤ 2 ^ 52 ∧ source.width ≤ 2 ^ 52) (sample : Nat → Nat → UInt8)
    (inImage : y < target.height) (inRow : x < target.width) :
    formed .linear source target sample y x = formed .area source target sample y x := by
  -- Both taps lie half way between the two samples that the block has there.
  rw [halves.rows, halves.columns] at short
  obtain ⟨upper, lower, rows⟩ := Linear.tap_half inImage short.1
  obtain ⟨first, second, columns⟩ := Linear.tap_half inRow short.2
  rw [formed_area_half halves sample inImage inRow]
  simp only [formed, halves.rows, halves.columns, Tap.value, upper, lower, first, second]
  exact Area.Blocks.ofSingle_blend_half rows columns _ _ _ _

end Resampling

variable {channels : Nat}

/-- Blending and averaging write the same over a target of half the extent of its source: over
bytes, on axes of at most `2 ^ 52` samples, past which doubles have no halves for the centres, and
in exact arithmetic. -/
theorem resize_half :
    (∀ {source target : View UInt8 channels}, checkChannels channels = .ok () →
      target.extent.Halves source.extent →
      source.layout.height ≤ 2 ^ 52 → source.layout.width ≤ 2 ^ 52 →
      ∃ written, resize .linear source target = .ok (some written) ∧
        resize .area source target = .ok (some written)) ∧
    ∀ {α : Type} [Element α ℚ ℚ] {source target : View α channels},
      checkChannels channels = .ok () → target.extent.Halves source.extent →
      ∃ written, resize .linear source target = .ok (some written) ∧
        resize .area source target = .ok (some written) := by
  refine ⟨fun accepted halves high long => ?_, fun accepted halves => ?_⟩
  -- The bound is that of the taps; the means need none.
  · exact exists_resize_of_formed_eq Area.Share.startsInside_float accepted
      fun sample y x => Resampling.formed_half_byte halves ⟨high, long⟩ sample
  -- In exact arithmetic there is no bound.
  · exact exists_resize_of_formed_eq Area.Share.startsInside_rat accepted
      fun sample y x => Resampling.formed_half_rat halves sample

/-- Two rows of two samples, with a sample of padding between them. -/
def fourSamples {α : Type} (a b c d padding : α) : View α 1 :=
  ⟨⟨2, 2, 3⟩, #[a, b, padding, c, d], Layout.check_eq_ok_iff.mp rfl⟩

/-- Room for one sample. -/
def oneSample {α : Type} (old : α) : View α 1 := ⟨⟨1, 1, 1⟩, #[old], Layout.check_eq_ok_iff.mp rfl⟩

/-- A single sample has half the extent of four. -/
theorem oneSample_halves {α : Type} (a b c d padding old : α) :
    (oneSample old).extent.Halves (fourSamples a b c d padding).extent := ⟨rfl, rfl⟩

/-- Four bytes whose mean is two and a half become three, and four numbers become their mean. -/
theorem resize_half_fourSamples : checkChannels 1 = .ok () ∧
    (oneSample (0 : UInt8)).extent.Halves (fourSamples (1 : UInt8) 2 3 4 9).extent ∧
    (∃ written, resize .linear (fourSamples (1 : UInt8) 2 3 4 9) (oneSample 0) =
        .ok (some written) ∧
      resize .area (fourSamples (1 : UInt8) 2 3 4 9) (oneSample 0) = .ok (some written) ∧
      written.sample? 0 0 0 = some 3) ∧
    ∃ written, resize .linear (fourSamples (1 : ℚ) 2 3 4 9) (oneSample 0) = .ok (some written) ∧
      resize .area (fourSamples (1 : ℚ) 2 3 4 9) (oneSample 0) = .ok (some written) ∧
      written.sample? 0 0 0 = some (5 / 2) := by
  have halves := oneSample_halves (1 : UInt8) 2 3 4 9 0
  obtain ⟨bytes, numbers⟩ := @resize_half 1
  obtain ⟨written, blended, averaged⟩ := bytes rfl halves (by decide) (by decide)
  obtain ⟨mean, mixed, divided⟩ := numbers rfl (oneSample_halves (1 : ℚ) 2 3 4 9 0)
  refine ⟨rfl, halves, ⟨written, blended, averaged, ?_⟩, mean, mixed, divided, ?_⟩
  -- The mean 5 / 2 lies half way between two bytes and is rounded up.
  · have read : ((resize .area (fourSamples (1 : UInt8) 2 3 4 9) (oneSample 0)).toOption.join.bind
        fun written => written.sample? 0 0 0) = some 3 := by decide +kernel
    rwa [averaged] at read
  · have read : ((resize .area (fourSamples (1 : ℚ) 2 3 4 9) (oneSample 0)).toOption.join.bind
        fun written => written.sample? 0 0 0) = some (5 / 2) := by decide +kernel
    rwa [divided] at read

/-- Two rows of two bytes more than doubles can place. -/
theorem longRows_packs : View.Packs ⟨2, 2 ^ 52 + 2⟩ 1 :=
  ⟨by decide, by decide, by decide, by decide⟩

/-- A row of half as many bytes. -/
theorem halfOfLongRows_packs : View.Packs ⟨1, 2 ^ 51 + 1⟩ 1 :=
  ⟨by decide, by decide, by decide, by decide⟩

/-- Past the bound the centre of the last destination is rounded onto its first sample, so a blend
leaves out the second one, of which half counts in the mean. -/
theorem resize_half_longRows :
    (View.brightColumn halfOfLongRows_packs 0).extent.Halves
      (View.brightColumn longRows_packs (2 ^ 52 + 1)).extent ∧
    (∃ written, resize .linear (View.brightColumn longRows_packs (2 ^ 52 + 1))
        (View.brightColumn halfOfLongRows_packs 0) = .ok (some written) ∧
      written.sample? 0 (2 ^ 51) 0 = some 0) ∧
    ∃ written, resize .area (View.brightColumn longRows_packs (2 ^ 52 + 1))
        (View.brightColumn halfOfLongRows_packs 0) = .ok (some written) ∧
      written.sample? 0 (2 ^ 51) 0 = some 128 := by
  have shows := View.packed_shows longRows_packs
    fun _ x _ => if x = 2 ^ 52 + 1 then (255 : UInt8) else 0
  have halves : Extent.Halves ⟨1, 2 ^ 51 + 1⟩ ⟨2, 2 ^ 52 + 2⟩ := ⟨rfl, rfl⟩
  refine ⟨halves, ?_, ?_⟩
  · obtain ⟨written, finished, layout, values⟩ : ∃ written, resize .linear _
        (View.brightColumn halfOfLongRows_packs 0) = .ok (some written) ∧ _ :=
      exists_resize_linear rfl shows
    refine ⟨written, finished, ?_⟩
    rw [values 0 (2 ^ 51) 0 (by rw [layout]; decide) (by rw [layout]; decide) (by decide)]
    have blended : Tap.value (fun _ x _ => if x = 2 ^ 52 + 1 then (255 : UInt8) else 0)
        (Linear.tap Float 2 1 0) (Linear.tap Float (2 ^ 52 + 2) (2 ^ 51 + 1) (2 ^ 51)) 0 = 0 := by
      decide +kernel
    exact congrArg some blended
  · obtain ⟨written, finished, layout, values⟩ : ∃ written, resize .area _
        (View.brightColumn halfOfLongRows_packs 0) = .ok (some written) ∧ _ :=
      exists_resize_formed Area.Share.startsInside_float .area rfl shows
    refine ⟨written, finished, ?_⟩
    rw [values 0 (2 ^ 51) 0 (by rw [layout]; decide) (by rw [layout]; decide) (by decide)]
    -- Both rows have one dark and one bright byte there.
    have averaged := Resampling.formed_area_half (S := Float32) (D := Float) halves
      (fun _ x => if x = 2 ^ 52 + 1 then (255 : UInt8) else 0) (y := 0) (x := 2 ^ 51)
      (by decide) (by decide)
    have mean : (Element.ofSingle (Area.Blocks.mean 2 2 [(0 : UInt8), 255, 0, 255] : Float32) :
        UInt8) = 128 := by decide +kernel
    exact congrArg some (averaged.trans mean)

end Raster
