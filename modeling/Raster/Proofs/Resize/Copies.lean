import Raster.Proofs.Resize.Written

/-!
Copying resizes.  Main statement: `resize_nearest_copies`, every pixel of the target is a source
pixel, that of its scaled position exactly where the products of both axes are words, and where they
are, enlarging by whole factors is undone by shrinking.
-/

namespace Raster

namespace Nearest

/-- Shrinking an axis by a whole factor takes the first copy of every sample, so it finds the
samples that the axis had before it was enlarged, as long as it was enlarged in words. -/
theorem source_enlarged {size factor d : Nat} (samples : 0 < size) (copies : 0 < factor)
    (inside : d < size) (words : (size * factor - 1) * size < wordLimit) :
    source size (size * factor) (source (size * factor) size d) = d := by
  have all : 0 < size * factor := Nat.mul_pos samples copies
  -- No product is larger than that of the last copy and the axis it was taken from.
  have last : d * factor ≤ size * factor - 1 := by
    have next := Nat.mul_le_mul_right factor (Nat.succ_le_of_lt inside)
    rw [Nat.succ_mul] at next
    omega
  have product := Nat.mul_le_mul_right size last
  have again : d * (size * factor) = d * factor * size := by
    rw [Nat.mul_comm size, ← Nat.mul_assoc]
  have first : source (size * factor) size d = d * factor := by
    rw [source_eq_of_lt (by omega), again, Nat.mul_div_cancel _ samples]
  rw [first, source_eq_of_lt (by omega), Nat.mul_assoc, Nat.mul_comm factor,
    Nat.mul_div_cancel _ all]

end Nearest

variable {depth : Depth} {channels : Nat} {source target large back : View depth.Sample channels}

/-- An accepted copy gives every visible pixel of the target the samples of a source pixel, whose
indices lie on the source. -/
theorem exists_resize_copied (accepted : checkChannels channels = .ok ()) :
    ∃ written, resize .nearest source target = .ok (some written) ∧
      written.layout = target.layout ∧
      ∀ y x c, y < target.layout.height → x < target.layout.width → c < channels →
        Nearest.source source.layout.height target.layout.height y < source.layout.height ∧
        Nearest.source source.layout.width target.layout.width x < source.layout.width ∧
        written.sample? y x c = source.sample?
          (Nearest.source source.layout.height target.layout.height y)
          (Nearest.source source.layout.width target.layout.width x) c := by
  obtain ⟨sample, shows⟩ := source.exists_shows
  obtain ⟨written, finished, layout, values⟩ :=
    @exists_resize_nearest _ _ _ _ _ _ _ source target _ accepted shows
  refine ⟨written, finished, layout, fun y x c inImage inRow inPixel => ?_⟩
  -- Both indices lie on the source, which shows a sample there.
  have row := Nearest.source_lt source.fits.height_pos inImage
  have column := Nearest.source_lt source.fits.width_pos inRow
  refine ⟨row, column, ?_⟩
  rw [values y x c (layout ▸ inImage) (layout ▸ inRow) inPixel]
  exact (shows _ _ c row column inPixel).symm

/-- A copy onto whole multiples of the extent of the source, copied back onto that extent, has the
visible samples of the source, if the products of the longer axes are words. -/
theorem exists_resize_restored (accepted : checkChannels channels = .ok ()) {down across : Nat}
    (rows : large.layout.height = source.layout.height * down)
    (columns : large.layout.width = source.layout.width * across)
    (rowWords : (large.layout.height - 1) * source.layout.height < wordLimit)
    (columnWords : (large.layout.width - 1) * source.layout.width < wordLimit)
    (same : back.extent = source.extent) :
    ∃ enlarged restored, resize .nearest source large = .ok (some enlarged) ∧
      resize .nearest enlarged back = .ok (some restored) ∧ restored.layout = back.layout ∧
      ∀ y x c, y < source.layout.height → x < source.layout.width → c < channels →
        restored.sample? y x c = source.sample? y x c := by
  obtain ⟨sample, shows⟩ := source.exists_shows
  obtain ⟨enlarged, grown, wider, copies⟩ :=
    @exists_resize_nearest _ _ _ _ _ _ _ source large _ accepted shows
  obtain ⟨restored, shrunk, layout, values⟩ :=
    @exists_resize_nearest _ _ _ _ _ _ _ enlarged back _ accepted copies
  refine ⟨enlarged, restored, grown, shrunk, layout, fun y x c inImage inRow inPixel => ?_⟩
  have height : back.layout.height = source.layout.height := congrArg Extent.height same
  have width : back.layout.width = source.layout.width := congrArg Extent.width same
  -- An accepted layout has rows and columns, so none of the factors is zero.
  have more : 0 < source.layout.height * down := rows ▸ large.fits.height_pos
  have wide : 0 < source.layout.width * across := columns ▸ large.fits.width_pos
  -- Down and up again, each axis finds the sample that it started from.
  have row := Nearest.source_enlarged source.fits.height_pos (Nat.pos_of_mul_pos_left more)
    inImage (rows ▸ rowWords)
  have column := Nearest.source_enlarged source.fits.width_pos (Nat.pos_of_mul_pos_left wide)
    inRow (columns ▸ columnWords)
  rw [values y x c (by rw [layout, height]; exact inImage) (by rw [layout, width]; exact inRow)
    inPixel, wider, rows, columns, height, width]
  simp only [row, column]
  exact (shows y x c inImage inRow inPixel).symm

/-- Copying gives each visible pixel of the target, sample by sample, a source pixel. Its index on
either axis is the scaled one rounded down exactly where the product that is scaled is a word, and
where overflow is a fault the indices of an axis are found exactly when its last product is one. A
source that is copied in words onto whole multiples of its extent and back has all its samples
again. -/
theorem resize_nearest_copies (accepted : checkChannels channels = .ok ()) :
    (∃ written, resize .nearest source target = .ok (some written) ∧
      written.layout = target.layout ∧
      ∀ y x c, y < target.layout.height → x < target.layout.width → c < channels →
        Nearest.source source.layout.height target.layout.height y < source.layout.height ∧
        Nearest.source source.layout.width target.layout.width x < source.layout.width ∧
        written.sample? y x c = source.sample?
          (Nearest.source source.layout.height target.layout.height y)
          (Nearest.source source.layout.width target.layout.width x) c) ∧
    (∀ sourceSize targetSize, 0 < targetSize → targetSize ≤ wordLimit →
      (∀ d, Nearest.source sourceSize targetSize d = d * sourceSize / targetSize ↔
        d * sourceSize < wordLimit) ∧
      Nearest.tableWord? sourceSize targetSize =
        if (targetSize - 1) * sourceSize < wordLimit then
          some (Nearest.table sourceSize targetSize)
        else none) ∧
    ∀ (large back : View depth.Sample channels) (down across : Nat),
      large.layout.height = source.layout.height * down →
      large.layout.width = source.layout.width * across →
      (large.layout.height - 1) * source.layout.height < wordLimit →
      (large.layout.width - 1) * source.layout.width < wordLimit → back.extent = source.extent →
      ∃ enlarged restored, resize .nearest source large = .ok (some enlarged) ∧
        resize .nearest enlarged back = .ok (some restored) ∧ restored.layout = back.layout ∧
        ∀ y x c, y < source.layout.height → x < source.layout.width → c < channels →
          restored.sample? y x c = source.sample? y x c := by
  -- The copies, the table in words, and the way to a larger image and back.
  refine ⟨exists_resize_copied accepted, fun sourceSize targetSize positive words => ?_, ?_⟩
  · exact ⟨fun d => Nearest.source_eq_iff positive words, Nearest.tableWord?_eq _ _⟩
  · intro large back down across rows columns rowWords columnWords same
    exact exists_resize_restored accepted rows columns rowWords columnWords same

/-- A row of two values that arithmetic would not keep: a NaN with a payload and a negative zero. -/
def payloadRow : View Binary32 1 :=
  ⟨⟨1, 2, 2⟩, #[⟨0x7fc01234⟩, ⟨0x80000000⟩], Layout.check_eq_ok_iff.mp rfl⟩

/-- Room for three values, which two do not divide. -/
def threeValues : View Binary32 1 :=
  ⟨⟨1, 3, 3⟩, Array.replicate 3 ⟨0⟩, Layout.check_eq_ok_iff.mp rfl⟩

/-- Room for twice the rows and three times the columns, with a longer stride. -/
def sixfoldValues : View Binary32 1 :=
  ⟨⟨2, 6, 7⟩, Array.replicate 13 ⟨0⟩, Layout.check_eq_ok_iff.mp rfl⟩

/-- Three values take the NaN twice and then the zero, and a sixfold enlargement is undone, all with
their own bits. -/
theorem resize_nearest_copies_payloadRow :
    checkChannels 1 = .ok () ∧
    (∃ written, resize .nearest payloadRow threeValues = .ok (some written) ∧
      written.sample? 0 1 0 = some ⟨0x7fc01234⟩ ∧ written.sample? 0 2 0 = some ⟨0x80000000⟩) ∧
    ∃ enlarged restored, resize .nearest payloadRow sixfoldValues = .ok (some enlarged) ∧
      resize .nearest enlarged payloadRow = .ok (some restored) ∧
      restored.sample? 0 0 0 = some ⟨0x7fc01234⟩ ∧ restored.sample? 0 1 0 = some ⟨0x80000000⟩ := by
  -- The payload of NaN and the sign of zero are copied with the rest.
  obtain ⟨⟨written, finished, -, values⟩, -, round⟩ :=
    @resize_nearest_copies .single 1 payloadRow threeValues rfl
  obtain ⟨enlarged, restored, grown, shrunk, -, same⟩ :=
    round sixfoldValues payloadRow 2 3 rfl rfl (by decide) (by decide) rfl
  refine ⟨rfl, ⟨written, finished, ?_, ?_⟩, enlarged, restored, grown, shrunk, ?_, ?_⟩
  · exact (values 0 1 0 (by decide) (by decide) (by decide)).2.2
  · exact (values 0 2 0 (by decide) (by decide) (by decide)).2.2
  · exact same 0 0 0 (by decide) (by decide) (by decide)
  · exact same 0 1 0 (by decide) (by decide) (by decide)

/-- A row of as many bytes as its last product with a row of `2 ^ 28 + 1` makes too large. -/
theorem longRow_packs : View.Packs ⟨1, 2 ^ 36⟩ 1 :=
  ⟨by decide, by decide, by decide, by decide⟩

/-- A row onto which the longer one is copied. -/
theorem shortRow_packs : View.Packs ⟨1, 2 ^ 28 + 1⟩ 1 :=
  ⟨by decide, by decide, by decide, by decide⟩

/-- The last pixel of the shorter row has a product that is no word. Its scaled position is that of
the brightest byte, but the first one is copied; where overflow is a fault no index is found. -/
theorem resize_nearest_longRow : ∃ written,
    resize .nearest (View.brightColumn longRow_packs (2 ^ 36 - 2 ^ 8))
      (View.brightColumn shortRow_packs 0) = .ok (some written) ∧
    2 ^ 28 * 2 ^ 36 / (2 ^ 28 + 1) = 2 ^ 36 - 2 ^ 8 ∧
    (View.brightColumn longRow_packs (2 ^ 36 - 2 ^ 8)).sample? 0 (2 ^ 36 - 2 ^ 8) 0 = some 255 ∧
    written.sample? 0 (2 ^ 28) 0 = some 0 ∧
    Nearest.tableWord? (2 ^ 36) (2 ^ 28 + 1) = none := by
  have shows := View.packed_shows longRow_packs
    fun _ x _ => if x = 2 ^ 36 - 2 ^ 8 then (255 : UInt8) else 0
  obtain ⟨written, finished, layout, values⟩ : ∃ written, resize .nearest _
      (View.brightColumn shortRow_packs 0) = .ok (some written) ∧ _ :=
    exists_resize_nearest rfl shows
  refine ⟨written, finished, by decide,
    shows 0 (2 ^ 36 - 2 ^ 8) 0 (by decide) (by decide) (by decide), ?_, ?_⟩
  · -- The product of the last destination is `2 ^ 64`, so it wraps to the first sample.
    rw [values 0 (2 ^ 28) 0 (by rw [layout]; decide) (by rw [layout]; decide) (by decide)]
    have first : Nearest.source (2 ^ 36) (2 ^ 28 + 1) (2 ^ 28) = 0 := by decide +kernel
    show some (if Nearest.source (2 ^ 36) (2 ^ 28 + 1) (2 ^ 28) = 2 ^ 36 - 2 ^ 8 then _ else _) = _
    rw [first]
    rfl
  · rw [Nearest.tableWord?_eq, if_neg (by decide)]

end Raster
