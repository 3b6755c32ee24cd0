import Raster.Proofs.Binary.Byte
import Raster.Proofs.Resize.Weights
import Raster.Proofs.Resize.Written

/-!
Images of one byte under averaging by overlap.  Main statement: `resize_overlaps_eq_constant_iff`,
the byte comes back exactly where its weighted total is nearer to it than to any other, and
everywhere when the target is small.
-/

namespace Raster

open Binary

namespace Area.Overlaps

/-- The number that an image of one byte gives for a row cell and a column cell. -/
def constantTotal (byte : UInt8) (rows columns : List (Share Float32)) : Float32 :=
  weighted (rows.map fun share => (decimated (fun _ => byte) columns, share.weight))

/-- The byte comes back from two cells exactly when their total of it is stored as that byte. -/
theorem value_eq_iff {byte : UInt8} {rows columns : List (Share Float32)} :
    value (fun _ _ => byte) rows columns = byte ↔
      Byte.Keeps byte (constantTotal byte rows columns) :=
  Byte.ofSingle_eq_iff

/-- Rounding to a single moves numbers below 512 very little. -/
theorem abs_nearest32_sub_le {q : ℚ} (low : 0 ≤ q) (high : q < 512) :
    |nearest32 q - q| ≤ 1 / 2 ^ 16 ∧ |nearest32 q| < 2 ^ 128 := by
  -- The last of 24 digits is then the 15th place after the point.
  have moved := nearest32_near (k := 9) low (high.trans_eq (by norm_num)) (by norm_num)
  have within : |q| ≤ 2 ^ (9 : ℤ) := by
    rw [abs_of_nonneg low]
    exact high.le.trans_eq (by norm_num)
  refine ⟨?_, (abs_nearest_le (by decide) within).trans_lt (by norm_num)⟩
  norm_num at moved ⊢
  exact moved

/-- Adding a number times one weight after another moves the exact sum by little at each of them. -/
theorem exists_reads_foldl {shares : List (Share Float32)} {total : ℚ}
    (totals : Share.Totals shares total) {x sum : Float32} {p r : ℚ} (number : Reads x p)
    (positive : 0 ≤ p) (start : Reads sum r) (nonneg : 0 ≤ r)
    (high : r + p * total + shares.length / 2 ^ 15 ≤ 511) :
    ∃ result, Reads (shares.foldl (fun sum share => sum + x * share.weight) sum) result ∧
      0 ≤ result ∧ |result - (r + p * total)| ≤ shares.length / 2 ^ 15 := by
  -- Both the product and the sum are rounded once, and they stay in range.
  induction totals generalizing sum r with
  | nil => exact ⟨r, start, nonneg, by simp⟩
  | cons read weightNonneg others ih =>
    rename_i share rest weight total
    have restNonneg := others.nonneg
    have productNonneg := mul_nonneg positive weightNonneg
    have restProduct := mul_nonneg positive restNonneg
    -- What is still to be added keeps the sum in range at this step too.
    rw [mul_add, List.length_cons, Nat.cast_succ] at high
    have steps : (0 : ℚ) ≤ rest.length := Nat.cast_nonneg _
    obtain ⟨productNear, productFits⟩ :=
      abs_nearest32_sub_le productNonneg (by linarith)
    have product := number.mul read productFits
    have productLow : 0 ≤ nearest32 (p * weight) := nearest_nonneg productNonneg
    obtain ⟨productBelow, productAbove⟩ := abs_le.mp productNear
    obtain ⟨sumNear, sumFits⟩ := abs_nearest32_sub_le (q := r + nearest32 (p * weight))
      (by linarith) (by linarith)
    obtain ⟨sumBelow, sumAbove⟩ := abs_le.mp sumNear
    obtain ⟨result, found, low, near⟩ := ih (start.add product sumFits)
      (nearest_nonneg (by linarith)) (by linarith)
    refine ⟨result, found, low, ?_⟩
    obtain ⟨below, above⟩ := abs_le.mp near
    rw [List.length_cons, Nat.cast_succ, add_div, abs_le]
    constructor <;> linarith

/-- A number weighted by a cell of a resolved axis hardly changes. -/
theorem exists_reads_weighted {sourceSize targetSize d : Nat}
    (axis : Share.Resolved sourceSize targetSize) (inside : d < targetSize) {x : Float32} {p : ℚ}
    (number : Reads x p) (positive : 0 ≤ p) (high : p ≤ 256) :
    ∃ result, Reads (weighted ((Share.cell Float sourceSize targetSize d).map
        fun share => (x, share.weight))) result ∧
      0 ≤ result ∧ |result - p| ≤ 1 / 5 := by
  -- The weights add up to nearly one, and there are few of them to round at.
  obtain ⟨total, totals, near, few⟩ := axis.exists_totals_cell inside
  obtain ⟨totalLow, totalHigh⟩ := abs_le.mp near
  have moved : |p * total - p| ≤ 256 * (1 / 2000) := by
    rw [← mul_sub_one, abs_mul, abs_of_nonneg positive]
    exact mul_le_mul high near (abs_nonneg _) (by norm_num)
  obtain ⟨movedLow, movedHigh⟩ := abs_le.mp moved
  have steps : ((Share.cell Float sourceSize targetSize d).length : ℚ) ≤ 2050 := by
    exact_mod_cast few
  obtain ⟨result, found, low, rounded⟩ :=
    exists_reads_foldl totals number positive reads_zero le_rfl (by linarith)
  refine ⟨result, ?_, low, ?_⟩
  · rw [weighted, List.foldl_map]
    exact found
  · obtain ⟨below, above⟩ := abs_le.mp rounded
    rw [abs_le]
    constructor <;> linarith

/-- Every byte comes back from two cells of resolved axes. -/
theorem keeps_constantTotal (byte : UInt8) {sourceSize targetSize d sourceSize' targetSize' e : Nat}
    (rows : Share.Resolved sourceSize targetSize) (inImage : d < targetSize)
    (columns : Share.Resolved sourceSize' targetSize') (inRow : e < targetSize') :
    Byte.Keeps byte (constantTotal byte (Share.cell Float sourceSize targetSize d)
      (Share.cell Float sourceSize' targetSize' e)) := by
  have limit := byte.toNat_lt
  have most : (byte.toNat : ℚ) ≤ 255 := by exact_mod_cast Nat.le_of_lt_succ limit
  -- The byte changes by less than a half over the two axes together.
  obtain ⟨across, acrossRead, acrossLow, acrossNear⟩ := exists_reads_weighted columns inRow
    (reads_toFloat32 byte) (Nat.cast_nonneg _) (by linarith)
  obtain ⟨acrossBelow, acrossAbove⟩ := abs_le.mp acrossNear
  obtain ⟨total, read, -, near⟩ := exists_reads_weighted rows inImage acrossRead acrossLow
    (by linarith)
  obtain ⟨below, above⟩ := abs_le.mp near
  have stored : (Byte.ofSingle (constantTotal byte (Share.cell Float sourceSize targetSize d)
      (Share.cell Float sourceSize' targetSize' e))).toNat = byte.toNat :=
    (Byte.toNat_ofSingle_eq_iff read (by omega)).mpr ⟨.inr (by linarith), .inr (by linarith)⟩
  exact Byte.ofSingle_eq_iff.mp (UInt8.toNat_inj.mp stored)

end Area.Overlaps

open Area Area.Overlaps

/-- Averaging an image of one byte by overlap always finishes, and a visible sample of the target is
that byte exactly when the total over the cells of its row and column is stored as it; it always is
when both sides of the target have fewer than a thousand samples, at most 2048 to one of them. -/
theorem resize_overlaps_eq_constant_iff {channels : Nat} {source target : View UInt8 channels}
    {byte : UInt8} (accepted : checkChannels channels = .ok ())
    (planned : plan? source.extent target.extent = some .overlaps)
    (constant : source.Shows fun _ _ _ => byte) :
    ∃ written, resize .area source target = .ok (some written) ∧ written.layout = target.layout ∧
      (∀ y x c, y < target.layout.height → x < target.layout.width → c < channels →
        (written.sample? y x c = some byte ↔
          Byte.Keeps byte (constantTotal byte
            (Share.cell Float source.layout.height target.layout.height y)
            (Share.cell Float source.layout.width target.layout.width x)))) ∧
      (Share.Resolved source.layout.height target.layout.height →
        Share.Resolved source.layout.width target.layout.width →
        ∀ y x c, y < target.layout.height → x < target.layout.width → c < channels →
          written.sample? y x c = some byte) := by
  -- Every sample read is the same byte, so only the weights of the two cells matter.
  obtain ⟨written, finished, layout, values⟩ :=
    exists_resize_overlaps Share.startsInside_float accepted planned constant
  have kept : ∀ y x c, y < target.layout.height → x < target.layout.width → c < channels →
      (written.sample? y x c = some byte ↔ Byte.Keeps byte (constantTotal byte
        (Share.cell Float source.layout.height target.layout.height y)
        (Share.cell Float source.layout.width target.layout.width x))) := by
    intro y x c inImage inRow inPixel
    rw [← layout] at inImage inRow
    rw [values y x c inImage inRow inPixel, Option.some.injEq]
    exact value_eq_iff
  refine ⟨written, finished, layout, kept, fun rows columns y x c inImage inRow inPixel => ?_⟩
  exact (kept y x c inImage inRow inPixel).mpr (keeps_constantTotal byte rows inImage columns inRow)

/-- A row of equal bytes. -/
def constantRow (byte : UInt8) (width : Nat) (positive : 0 < width) (short : width < wordLimit) :
    View UInt8 1 :=
  ⟨⟨1, width, width⟩, Array.replicate width byte, by
    -- One packed row: each requirement is one of the width.
    rw [Array.size_replicate]
    exact ⟨Nat.one_pos, positive, by simpa [Layout.rowLength] using short,
      by simp [Layout.rowLength], positive, by simp [Layout.required, Layout.rowLength]⟩⟩

/-- Every visible sample of a row of equal bytes is that byte. -/
theorem constantRow_shows (byte : UInt8) (width : Nat) (positive : 0 < width)
    (short : width < wordLimit) :
    (constantRow byte width positive short).Shows fun _ _ _ => byte := by
  intro y x c inImage inRow inPixel
  -- Any place inside the array holds the byte.
  have place := (constantRow byte width positive short).fits.place_lt inImage
    (View.place_in_row inRow inPixel)
  rw [View.sample?_eq _ inRow inPixel, Array.getElem?_eq_getElem place]
  simp [constantRow]

/-- Three bytes of 255 are averaged to two of them. -/
theorem resize_overlaps_threeBytes :
    checkChannels 1 = .ok () ∧
    plan? (constantRow 255 3 (by decide) (by decide)).extent
      (constantRow 0 2 (by decide) (by decide)).extent = some .overlaps ∧
    ∃ written, resize .area (constantRow 255 3 (by decide) (by decide))
        (constantRow 0 2 (by decide) (by decide)) = .ok (some written) ∧
      written.sample? 0 0 0 = some 255 ∧ written.sample? 0 1 0 = some 255 := by
  obtain ⟨written, finished, -, -, always⟩ := @resize_overlaps_eq_constant_iff 1
    (constantRow 255 3 (by decide) (by decide)) (constantRow 0 2 (by decide) (by decide)) 255 rfl
    rfl (constantRow_shows 255 3 (by decide) (by decide))
  -- Both axes are within the range in which no overlap is dropped.
  have kept := always ⟨by decide, by decide, by decide⟩ ⟨by decide, by decide, by decide⟩
  exact ⟨rfl, rfl, written, finished, kept 0 0 0 (by decide) (by decide) (by decide),
    kept 0 1 0 (by decide) (by decide) (by decide)⟩

/-- A row of 1003 bytes of 255. -/
def longRow : View UInt8 1 := constantRow 255 1003 (by decide) (by decide)

/-- A row of 1001 bytes. -/
def shorterRow : View UInt8 1 := constantRow 0 1001 (by decide) (by decide)

/-- A row of 1003 bytes of 255 is averaged by overlap to 1001 bytes, and the middle one is 254. -/
theorem resize_overlaps_longRow : longRow.Shows (fun _ _ _ => 255) ∧
    plan? longRow.extent shorterRow.extent = some .overlaps ∧
    ∃ written, resize .area longRow shorterRow = .ok (some written) ∧
      written.sample? 0 500 0 = some 254 := by
  have shows : longRow.Shows fun _ _ _ => 255 := constantRow_shows 255 1003 (by decide) (by decide)
  have planned : plan? longRow.extent shorterRow.extent = some .overlaps := rfl
  obtain ⟨written, finished, layout, values⟩ :=
    exists_resize_overlaps Share.startsInside_float rfl planned shows
  refine ⟨shows, planned, written, finished, ?_⟩
  rw [values 0 500 0 (by rw [layout]; decide) (by rw [layout]; decide) (by decide)]
  -- The middle footprint reaches less than a thousandth into the samples beside number 501.
  exact congrArg some (by decide +kernel)

end Raster
