import Raster.Proofs.Resize.Mixing
import Raster.Proofs.Resize.Written

/-!
Samples without a share in a mixture.  Main statement: `sameNumber_resize_iff`, images that agree
wherever the taps of a pixel have a share are resized to the same number there exactly when neither
has an infinity or NaN without a share, or both give NaN.
-/

namespace Raster

open Binary

namespace Tap

section Samples

variable (sample other : Nat → Nat → Nat → Binary32) (row column : Tap Float32) (c : Nat)

/-- The number of the sample on a side of the row tap and a side of the column tap. -/
def taken (i j : Side) : Float32 := (sample (i.index row) (j.index column) c).toSingle

/-- The images hold the same numbers wherever both taps have a share. -/
def Agree : Prop :=
  ∀ i j : Side, ¬i.Idle row.weight → ¬j.Idle column.weight →
    SameNumber (taken sample row column c i j) (taken other row column c i j)

/-- A sample for which a tap has no share is an infinity or NaN. -/
def Spoils : Prop :=
  ∃ i j : Side, (i.Idle row.weight ∨ j.Idle column.weight) ∧
    (taken sample row column c i j).isFinite = false

/-- The mixture along the row on a side of the row tap. -/
def along (i : Side) : Float32 :=
  mix column.weight (taken sample row column c i .low) (taken sample row column c i .high)

end Samples

variable {sample other : Nat → Nat → Nat → Binary32} {row column : Tap Float32} {c : Nat}

/-- The sample of a row tap and a column tap mixes what both rows are mixed to. -/
theorem toSingle_value : (value sample row column c).toSingle =
    mix row.weight (along sample row column c .low) (along sample row column c .high) :=
  Float32.ofBits_toBits _

/-- An infinity or NaN without a share makes the sample NaN. -/
theorem isNaN_value_of_spoils (spoils : Spoils sample row column c) :
    (value sample row column c).toSingle.isNaN = true := by
  rw [isNaN_iff, toSingle_value]
  obtain ⟨i, j, rowIdle | columnIdle, endless⟩ := spoils
  -- Without a share in the row it spoils the mixture along the row, which has no share itself.
  · have spoilt : (along sample row column c i).isFinite = false :=
      isFinite_mix_eq_false (f := taken sample row column c i) endless
    exact meaning_mix_of_idle rowIdle spoilt
  · have spoilt : meaning (along sample row column c i) = .nan :=
      meaning_mix_of_idle (f := taken sample row column c i) columnIdle endless
    refine meaning_mix_eq_nan (show part row.weight (along sample row column c) i = .nan from ?_)
    rw [part, spoilt, Extended.nan_mul]

/-- Samples that are not spoilt are finite where a tap has no share. -/
theorem isFinite_of_not_spoils (clean : ¬Spoils sample row column c) {i j : Side}
    (idle : i.Idle row.weight ∨ j.Idle column.weight) :
    (taken sample row column c i j).isFinite = true := by
  -- A sample without a share that is not finite would spoil the blend.
  by_contra endless
  exact clean ⟨i, j, idle, Bool.not_eq_true _ ▸ endless⟩

/-- A weight that is NaN makes the mixture NaN. -/
theorem meaning_mix_of_nan {v : Float32} (nan : meaning v = .nan) (f : Side → Float32) :
    meaning (mix v (f .low) (f .high)) = .nan := by
  -- A weight that is NaN makes both parts NaN, whatever the samples are.
  refine meaning_mix_eq_nan (show part v f .high = .nan from ?_)
  rw [part, Side.share, nan, Extended.mul_nan]

/-- Images that agree wherever the taps have a share, and have nothing but numbers elsewhere, give
the same number. -/
theorem sameNumber_value (rowPortion : Portion row.weight) (columnPortion : Portion column.weight)
    (agree : Agree sample other row column c) (clean : ¬Spoils sample row column c)
    (cleanOther : ¬Spoils other row column c) :
    SameNumber (value sample row column c).toSingle (value other row column c).toSingle := by
  rw [sameNumber_iff, toSingle_value, toSingle_value]
  rcases rowPortion with notANumber | -
  · rw [meaning_mix_of_nan notANumber, meaning_mix_of_nan notANumber]
  rcases columnPortion with notANumber | ⟨w, weight, low, high⟩
  -- A column weight that is NaN leaves NaN of both rows.
  · have nan : ∀ (image : Nat → Nat → Nat → Binary32) (i : Side),
        meaning (along image row column c i) = .nan := fun image i =>
      meaning_mix_of_nan notANumber (taken image row column c i)
    refine meaning_mix_congr fun i => ?_
    rw [part, part, nan, nan]
  · refine meaning_mix_congr fun i => ?_
    by_cases idle : i.Idle row.weight
    -- A row without a share has finite samples, and these are mixed to a finite one.
    · have finite : ∀ image : Nat → Nat → Nat → Binary32, ¬Spoils image row column c →
          (along image row column c i).isFinite = true := by
        intro image clean
        obtain ⟨p, first⟩ := isFinite_iff.mp (isFinite_of_not_spoils clean (j := .low) (.inl idle))
        obtain ⟨q, second⟩ :=
          isFinite_iff.mp (isFinite_of_not_spoils clean (j := .high) (.inl idle))
        exact isFinite_iff.mpr (exists_reads_mix weight low high first second)
      rw [part_of_idle idle (finite sample clean), part_of_idle idle (finite other cleanOther)]
    -- In a row with a share the columns without one add nothing, and the others agree.
    · have same : meaning (along sample row column c i) = meaning (along other row column c i) := by
        refine meaning_mix_congr (f := taken sample row column c i)
          (g := taken other row column c i) fun j => ?_
        by_cases columnIdle : j.Idle column.weight
        · rw [part_of_idle columnIdle (isFinite_of_not_spoils clean (.inr columnIdle)),
            part_of_idle columnIdle (isFinite_of_not_spoils cleanOther (.inr columnIdle))]
        · rw [part, part, sameNumber_iff.mp (agree i j idle columnIdle)]
      rw [part, part, same]

/-- Of two images that agree wherever the taps have a share, a spoilt one gives the same number only
when both give NaN. -/
theorem sameNumber_value_iff (rowPortion : Portion row.weight)
    (columnPortion : Portion column.weight) (agree : Agree sample other row column c) :
    SameNumber (value sample row column c).toSingle (value other row column c).toSingle ↔
      (value sample row column c).toSingle.isNaN = true ∧
        (value other row column c).toSingle.isNaN = true ∨
      ¬Spoils sample row column c ∧ ¬Spoils other row column c := by
  constructor
  -- A spoilt image gives NaN, and what is the same number as NaN is NaN.
  · intro same
    by_cases spoilt : Spoils sample row column c ∨ Spoils other row column c
    · left
      rw [isNaN_iff, isNaN_iff, sameNumber_iff.mp same, and_self]
      rcases spoilt with spoils | spoils
      · exact (sameNumber_iff.mp same).symm.trans (isNaN_iff.mp (isNaN_value_of_spoils spoils))
      · exact isNaN_iff.mp (isNaN_value_of_spoils spoils)
    · exact .inr (not_or.mp spoilt)
  · rintro (nan | ⟨clean, cleanOther⟩)
    · exact .inl nan
    · exact sameNumber_value rowPortion columnPortion agree clean cleanOther

end Tap

/-- The taps by which a mode mixes the samples of one extent into those of another. -/
inductive TwoTap : Resampling → Extent → Extent → (Nat → Nat → Nat → Tap Float32) → Prop
  -- Both modes blend two samples on either axis, and differ in where the taps are.
  | linear (source target : Extent) : TwoTap .linear source target (Linear.tap Float)
  | growth {source target : Extent} (planned : Area.plan? source target = some .growth) :
      TwoTap .area source target (Area.Growth.tap Float)

section Resize

variable {channels : Nat} {mode : Resampling} {tap : Nat → Nat → Nat → Tap Float32}

/-- Weights of taps are numbers from zero to one. -/
theorem TwoTap.portion {source target : Extent} (taps : TwoTap mode source target tap)
    (sourceSize targetSize d : Nat) : Tap.Portion (tap sourceSize targetSize d).weight := by
  -- Weights of both modes are portions, each for its own reason.
  cases taps with
  | linear => exact Linear.portion_weight sourceSize targetSize d
  | growth planned => exact Area.Growth.portion_weight sourceSize targetSize d

/-- A resize through taps shows what the taps of both axes give. -/
theorem TwoTap.exists_resize {source target : View Binary32 channels}
    {sample : Nat → Nat → Nat → Binary32} (taps : TwoTap mode source.extent target.extent tap)
    (accepted : checkChannels channels = .ok ()) (shows : source.Shows sample) :
    ∃ written, resize mode source target = .ok (some written) ∧ written.layout = target.layout ∧
      written.Shows fun y x c => Tap.value sample
        (tap source.layout.height target.layout.height y)
        (tap source.layout.width target.layout.width x) c := by
  -- The modes are written alike, by their own tables of taps.
  cases taps with
  | linear => exact exists_resize_linear accepted shows
  | growth planned => exact exists_resize_growth accepted planned shows

/-- Two images of one extent that are resized through taps, and agree at a pixel wherever its taps
have a share: an infinity or NaN for which they have none makes its sample NaN, and the samples are
the same number exactly when both are NaN or there is no such infinity or NaN. -/
theorem sameNumber_resize_iff {source other target : View Binary32 channels}
    {sample sampleOther : Nat → Nat → Nat → Binary32}
    (taps : TwoTap mode source.extent target.extent tap) (sameExtent : other.extent = source.extent)
    (accepted : checkChannels channels = .ok ()) (shows : source.Shows sample)
    (showsOther : other.Shows sampleOther) :
    ∃ written writtenOther, resize mode source target = .ok (some written) ∧
      resize mode other target = .ok (some writtenOther) ∧
      ∀ y x c, y < target.layout.height → x < target.layout.width → c < channels →
        let row := tap source.layout.height target.layout.height y
        let column := tap source.layout.width target.layout.width x
        Tap.Agree sample sampleOther row column c →
        ∃ result resultOther, written.sample? y x c = some result ∧
          writtenOther.sample? y x c = some resultOther ∧
          (Tap.Spoils sample row column c → result.toSingle.isNaN = true) ∧
          (Tap.Spoils sampleOther row column c → resultOther.toSingle.isNaN = true) ∧
          (SameNumber result.toSingle resultOther.toSingle ↔
            result.toSingle.isNaN = true ∧ resultOther.toSingle.isNaN = true ∨
              ¬Tap.Spoils sample row column c ∧ ¬Tap.Spoils sampleOther row column c) := by
  -- Both images have one extent, so they are read through the same taps.
  have tapsOther : TwoTap mode other.extent target.extent tap := sameExtent ▸ taps
  have height : other.layout.height = source.layout.height := congrArg Extent.height sameExtent
  have width : other.layout.width = source.layout.width := congrArg Extent.width sameExtent
  obtain ⟨written, finished, layout, values⟩ := taps.exists_resize accepted shows
  obtain ⟨writtenOther, finishedOther, layoutOther, valuesOther⟩ :=
    tapsOther.exists_resize accepted showsOther
  rw [height, width] at valuesOther
  refine ⟨written, writtenOther, finished, finishedOther, ?_⟩
  intro y x c inImage inRow inPixel row column agree
  exact ⟨_, _, values y x c (layout ▸ inImage) (layout ▸ inRow) inPixel,
    valuesOther y x c (layoutOther ▸ inImage) (layoutOther ▸ inRow) inPixel,
    Tap.isNaN_value_of_spoils, Tap.isNaN_value_of_spoils,
    Tap.sameNumber_value_iff (taps.portion ..) (taps.portion ..) agree⟩

end Resize

/-- Zero, one and a third single of which the bits are given. -/
def third (bits : UInt32) : Nat → Nat → Nat → Binary32
  -- Zero, one and then the sample that differs.
  | _, 0, _ => ⟨0⟩
  | _, 1, _ => ⟨0x3f800000⟩
  | _, _, _ => ⟨bits⟩

/-- A row of zero, one and a third single. -/
def thirdRow (bits : UInt32) : View Binary32 1 :=
  ⟨⟨1, 3, 3⟩, #[⟨0⟩, ⟨0x3f800000⟩, ⟨bits⟩], Layout.check_eq_ok_iff.mp rfl⟩

/-- The row shows its three samples. -/
theorem thirdRow_shows (bits : UInt32) : (thirdRow bits).Shows (third bits) := by
  -- The three samples of the row are read one by one.
  refine View.shows_of_row rfl fun x inRow => ?_
  match x, inRow with
  | 0, _ => rfl
  | 1, _ => rfl
  | 2, _ => rfl

/-- A row of a single sample. -/
def oneSingle : View Binary32 1 := ⟨⟨1, 1, 1⟩, #[⟨0⟩], Layout.check_eq_ok_iff.mp rfl⟩

/-- The middle of three samples lies on the second, so the third has no share there. -/
theorem agree_third (bits other : UInt32) :
    Tap.Agree (third bits) (third other) (Linear.tap Float 1 1 0) (Linear.tap Float 3 1 0) 0 := by
  -- The destination in the middle of three samples takes the second one alone.
  have idle : Tap.Side.high.Idle (Linear.tap Float 3 1 0).weight := by decide +kernel
  have second : (Linear.tap Float 3 1 0).low = 1 := by decide +kernel
  intro i j _ counts
  cases j with
  | low =>
    have index : Tap.Side.low.index (Linear.tap Float 3 1 0) = 1 := second
    rw [Tap.taken, Tap.taken, index]
    exact sameNumber_iff.mpr rfl
  | high => exact absurd idle counts

/-- With a number for its third sample the row spoils nothing. -/
theorem not_spoils_third {bits : UInt32} (finite : (Float32.ofBits bits).isFinite = true)
    (row column : Tap Float32) (c : Nat) : ¬Tap.Spoils (third bits) row column c := by
  -- All samples are finite, with or without a share.
  rintro ⟨i, j, -, endless⟩
  have number : ∀ y x c, (third bits y x c).toSingle.isFinite = true := by
    intro y x c
    match x with
    | 0 => exact (by decide +kernel : (Float32.ofBits 0).isFinite = true)
    | 1 => exact (by decide +kernel : (Float32.ofBits 0x3f800000).isFinite = true)
    | _ + 2 => exact finite
  exact absurd ((number _ _ _).symm.trans endless) nofun

/-- Two numbers without a share leave the middle of a row what it is. -/
theorem sameNumber_resize_thirdRow :
    TwoTap .linear (thirdRow 0x40a00000).extent oneSingle.extent (Linear.tap Float) ∧
    (thirdRow 0x40e00000).extent = (thirdRow 0x40a00000).extent ∧ checkChannels 1 = .ok () ∧
    (thirdRow 0x40a00000).Shows (third 0x40a00000) ∧
    (thirdRow 0x40e00000).Shows (third 0x40e00000) ∧
    ∃ written writtenOther result resultOther,
      resize .linear (thirdRow 0x40a00000) oneSingle = .ok (some written) ∧
      resize .linear (thirdRow 0x40e00000) oneSingle = .ok (some writtenOther) ∧
      written.sample? 0 0 0 = some result ∧ writtenOther.sample? 0 0 0 = some resultOther ∧
      SameNumber result.toSingle resultOther.toSingle := by
  -- The third samples differ and are both finite, so neither blend is spoiled.
  have taps := TwoTap.linear (thirdRow 0x40a00000).extent oneSingle.extent
  have sameExtent : (thirdRow 0x40e00000).extent = (thirdRow 0x40a00000).extent := rfl
  have finite : (Float32.ofBits 0x40a00000).isFinite = true := by decide +kernel
  have finiteOther : (Float32.ofBits 0x40e00000).isFinite = true := by decide +kernel
  obtain ⟨written, writtenOther, finished, finishedOther, visible⟩ :=
    sameNumber_resize_iff taps sameExtent rfl (thirdRow_shows 0x40a00000)
      (thirdRow_shows 0x40e00000)
  obtain ⟨result, resultOther, read, readOther, -, -, same⟩ :=
    visible 0 0 0 (by decide) (by decide) (by decide) (agree_third _ _)
  exact ⟨taps, rfl, rfl, thirdRow_shows _, thirdRow_shows _, written, writtenOther, result,
    resultOther, finished, finishedOther, read, readOther,
    same.mpr (.inr ⟨not_spoils_third finite _ _ 0, not_spoils_third finiteOther _ _ 0⟩)⟩

/-- An infinity without a share makes the middle of a row NaN, where zero leaves it one. -/
theorem resize_linear_besideInfinity :
    Tap.Agree (third 0x7f800000) (third 0) (Linear.tap Float 1 1 0) (Linear.tap Float 3 1 0) 0 ∧
    (thirdRow 0x7f800000).Shows (third 0x7f800000) ∧ (thirdRow 0).Shows (third 0) ∧
    ∃ written writtenOther result,
      resize .linear (thirdRow 0x7f800000) oneSingle = .ok (some written) ∧
      resize .linear (thirdRow 0) oneSingle = .ok (some writtenOther) ∧
      written.sample? 0 0 0 = some result ∧ result.toSingle.isNaN = true ∧
      writtenOther.sample? 0 0 0 = some ⟨0x3f800000⟩ := by
  -- What is written is the blend of the row, which is then evaluated.
  have taken : ∀ bits : UInt32, ∃ written,
      resize .linear (thirdRow bits) oneSingle = .ok (some written) ∧
      written.layout = oneSingle.layout ∧ written.Shows fun y x c => Tap.value (third bits)
        (Linear.tap Float 1 1 y) (Linear.tap Float 3 1 x) c := fun bits =>
    exists_resize_linear rfl (thirdRow_shows bits)
  obtain ⟨written, finished, layout, values⟩ := taken 0x7f800000
  obtain ⟨writtenOther, finishedOther, layoutOther, valuesOther⟩ := taken 0
  refine ⟨agree_third _ _, thirdRow_shows _, thirdRow_shows _, written, writtenOther, _, finished,
    finishedOther, values 0 0 0 (by rw [layout]; decide) (by rw [layout]; decide) (by decide),
    by decide +kernel, ?_⟩
  rw [valuesOther 0 0 0 (by rw [layoutOther]; decide) (by rw [layoutOther]; decide) (by decide)]
  exact congrArg some (by decide +kernel)

end Raster
