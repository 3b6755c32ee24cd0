import Raster.Proofs.Binary.Byte
import Raster.Proofs.Box.Exact
import Raster.Proofs.Launch.Finish

/-!
Box sums of bytes in an arithmetic that has no numbers but the natural ones of at most 53 digits.
Main statement: `boxFilter_bytes_exact`, every sum that the filter forms is such a number, doubles
give the same one, and without division the filter stores the window's sum, or 255.
-/

namespace Raster

open Binary
open Scalar (ofNat)

/-- A natural number of at most 53 digits, or nothing where a result is no such number. -/
inductive Digits where
  | number (n : Nat) (short : n < 2 ^ 53)
  | nothing

namespace Digits

/-- A natural number, if it has at most 53 digits. -/
def of (n : Nat) : Digits := if short : n < 2 ^ 53 then number n short else nothing

/-- A byte is a number of eight digits. -/
def ofByte (byte : UInt8) : Digits := of byte.toNat

/-- What an operation makes of two numbers.  Without both of them there is no result, so what was
nothing once is nothing to the end. -/
def combine (operation : Nat → Nat → Option Nat) : Digits → Digits → Digits
  | number m _, number n _ => ((operation m n).map of).getD nothing
  | _, _ => nothing

instance : Scalar Digits where
  add := combine fun m n => some (m + n)
  sub := combine less?
  mul := combine fun m n => some (m * n)
  -- Only quotients without remainder are natural numbers.
  div := combine fun m n => if 0 < n ∧ n ∣ m then some (m / n) else none
  ofNat := of
  floor x := x
  lt
    | number m _, number n _ => m < n
    | _, _ => false

instance : Wide Digits Digits where
  -- Nothing is rounded, compared or narrowed in a filter, so these are not used.
  ceil x := x
  abs x := x
  toIndex
    | number n _ => n
    | nothing => 0
  toCoordinate
    | number n _ => n
    | nothing => 0
  narrow x := x

instance : Element Digits Digits Digits where
  -- Bytes and sums are counted alike.
  toSingle x := x
  toDouble x := x
  total run := run.foldl (· + ·) Scalar.zero
  ofSingle x := x
  ofDouble x := x

variable {m n : Nat}

/-- Numbers of at most 53 digits combine to their result. -/
theorem combine_of {operation : Nat → Nat → Nat} (first : m < 2 ^ 53) (second : n < 2 ^ 53) :
    combine (fun m n => some (operation m n)) (of m) (of n) = of (operation m n) := by
  -- Both have the digits that the operation looks for.
  rw [of, dif_pos first, of, dif_pos second]
  rfl

/-- The checked arithmetic counts bytes. -/
theorem counts : Counts Digits ofByte where
  add short := combine_of (by omega) (by omega)
  mul first second _ := combine_of first second
  toDouble _ := rfl
  total run short := by
    -- A run is added up sample by sample, as a period is.
    have read : ∀ byte, (Element.toDouble (ofByte byte) : Digits) = ofNat byte.toNat :=
      fun _ => rfl
    have sum := foldl_add_bytes (n := 0) (fun short => combine_of (by omega) (by omega)) read run
      (by rwa [Nat.zero_add])
    rwa [Nat.zero_add] at sum

end Digits

variable {α S D : Type} [Scalar S] [Wide D S] [Element α S D] {value : UInt8 → α}
variable {channels height width : Nat} {numbers : Nat → Nat → Nat → Nat}

/-- A stage of the filter gives an image of the given extent, whose entries are the given numbers,
all of at most 53 digits. -/
def Counted (stage : Option (Grid D channels)) (height width : Nat)
    (numbers : Nat → Nat → Nat → Nat) : Prop :=
  -- Each sum is that of its own place, and no other place is counted.
  ∃ image, stage = some image ∧ image.height = height ∧ image.width = width ∧
    ∀ y x c, y < height → x < width → c < channels →
      numbers y x c < 2 ^ 53 ∧ image.at? y x c = some (ofNat (numbers y x c))

/-- A stage gives the same numbers, all of at most 53 digits, in checked numbers and in doubles. -/
def Exact (checked : Option (Grid Digits channels)) (rounded : Option (Grid Float channels)) :
    Prop :=
  -- The checked stage is there, so none of its sums had too many digits.
  ∃ counts doubles, checked = some counts ∧ rounded = some doubles ∧
    counts.height = doubles.height ∧ counts.width = doubles.width ∧
    ∀ y x c, y < doubles.height → x < doubles.width → c < channels →
      ∃ n short, counts.at? y x c = some (.number n short) ∧ doubles.at? y x c = some (double n)

/-- What is counted in both arithmetics is exact. -/
theorem Counted.exact {checked : Option (Grid Digits channels)}
    {rounded : Option (Grid Float channels)} (first : Counted checked height width numbers)
    (second : Counted rounded height width numbers) : Exact checked rounded := by
  obtain ⟨counts, builtCounts, rows, columns, countReads⟩ := first
  obtain ⟨doubles, builtDoubles, height, width, doubleReads⟩ := second
  -- Both stages have the numbers of the same count, once checked and once as doubles.
  refine ⟨counts, doubles, builtCounts, builtDoubles, by omega, by omega,
    fun y x c inImage inRow inPixel => ?_⟩
  obtain ⟨short, count⟩ := countReads y x c (by omega) (by omega) inPixel
  obtain ⟨-, read⟩ := doubleReads y x c (by omega) (by omega) inPixel
  exact ⟨_, short, count.trans (congrArg some (dif_pos short)), read⟩

namespace BoxWindow

section Stages

variable (counts : Counts D value) (window : BoxWindow) {image : Grid UInt8 channels}
variable {bytes : Nat → Nat → Nat → UInt8} (shows : image.Shows bytes)
variable (tall : 0 < image.height) (wide : 0 < image.width)
variable (short : 255 * max window.width (2 * image.width) *
  max window.height (2 * image.height) < 2 ^ 53)

include counts shows wide short

/-- The sums over whole periods of the rows are counted. -/
theorem rowPeriods_counted :
    Counted ((WindowAxis.make image.width window.width window.border).rowPeriods?
        (image.map value) : Option (Grid D channels)) image.height 1 fun y _ c =>
      ((WindowAxis.make image.width window.width window.border).periodIndex.map fun column =>
        (bytes y column c).toNat).sum := by
  obtain ⟨periods, built, height, width, reads⟩ := WindowAxis.exists_rowPeriods? (D := D)
    window.width window.border (shows.map value) wide
  refine ⟨periods, built, height, width, fun y x c inImage inRow inPixel => ?_⟩
  -- A period is the same under every window of the row, so the first pixel's room will do.
  have room := (window.rooms (bytes · · c) inImage wide short).1 y
  refine ⟨room.period, (reads y x c (height ▸ inImage) (width ▸ inRow) inPixel).trans ?_⟩
  exact congrArg some (room.rowPeriod_eq counts)

/-- The window sums along the rows are counted. -/
theorem rowSums_counted :
    Counted ((WindowAxis.make image.width window.width window.border).rowSums?
        (image.map value) : Option (Grid D channels)) image.height image.width fun y x c =>
      window.lineSum image.width (bytes · · c) x y := by
  -- The sums of the lines come from the runs, edges and periods of the axis across.
  obtain ⟨sums, built, height, width, reads⟩ := WindowAxis.exists_rowSums? (D := D)
    window.width window.border (shows.map value) wide
  refine ⟨sums, built, height, width, fun y x c inImage inRow inPixel => ?_⟩
  have room := (window.rooms (bytes · · c) inImage inRow short).1 y
  refine ⟨room.sum, (reads y x c (height ▸ inImage) (width ▸ inRow) inPixel).trans ?_⟩
  exact congrArg some (room.rowSum_eq counts)

include tall

/-- The sums of row sums over whole periods of the columns are counted. -/
theorem columnPeriods_counted :
    Counted (((WindowAxis.make image.width window.width window.border).rowSums?
        (image.map value) : Option (Grid D channels)).bind
          (WindowAxis.make image.height window.height window.border).columnPeriods?)
      1 image.width fun _ x c =>
        ((WindowAxis.make image.height window.height window.border).periodIndex.map
          (window.lineSum image.width (bytes · · c) x)).sum := by
  obtain ⟨rows, builtRows, rowHeight, rowWidth, rowReads⟩ :=
    rowSums_counted counts window shows wide short
  -- The numbers that are added down the columns are the counted row sums.
  have rowShows : rows.Shows fun y x c => ofNat (window.lineSum image.width (bytes · · c) x y) :=
    fun y x c inImage inRow inPixel =>
      (rowReads y x c (rowHeight ▸ inImage) (rowWidth ▸ inRow) inPixel).2
  obtain ⟨periods, built, height, width, reads⟩ :=
    WindowAxis.exists_columnPeriods? window.height window.border rowShows (rowHeight ▸ tall)
  rw [rowHeight] at built reads
  rw [rowWidth] at width
  refine ⟨periods, by rw [builtRows]; exact built, height, width,
    fun y x c inImage inRow inPixel => ?_⟩
  -- As along a row, a period is the same under the window of the first row.
  have room := (window.rooms (bytes · · c) tall inRow short).2
  refine ⟨room.period, (reads y x c (height ▸ inImage) (width ▸ inRow) inPixel).trans ?_⟩
  exact congrArg some (room.columnPeriod_eq counts)

/-- The sums over the window are counted. -/
theorem sums_counted :
    Counted (window.sums? (image.map value) : Option (Grid D channels)) image.height image.width
      fun y x c => window.windowSum image.height image.width (bytes · · c) y x := by
  -- The sums of the columns come from those of the lines, with their own runs, edges and periods.
  obtain ⟨sums, built, height, width, reads⟩ :=
    window.exists_sums? (D := D) (shows.map value) tall wide
  refine ⟨sums, built, height, width, fun y x c inImage inRow inPixel => ?_⟩
  have room := (window.rooms (bytes · · c) inImage inRow short).2
  refine ⟨room.sum, (reads y x c (height ▸ inImage) (width ▸ inRow) inPixel).trans ?_⟩
  exact congrArg some (window.sumAt_eq counts (bytes · · c) inImage inRow short)

end Stages

/-- In a filter that does not divide, a sum of at most 53 digits is stored as itself, or as 255. -/
theorem toNat_ofDouble_undivided {window : BoxWindow} (undivided : window.normalize = false)
    {n : Nat} (short : n < 2 ^ 53) :
    (Byte.ofDouble (window.scaled (double n))).toNat = min 255 n := by
  have kept : window.scaled (double n) = double n := by rw [scaled, undivided]; rfl
  have room : (n : ℚ) + 1 / 2 < 2 ^ 53 := by
    have next : (n : ℚ) + 1 ≤ 2 ^ 53 := by exact_mod_cast short
    linarith
  -- Half a step above a natural number its floor is still that number.
  have floor : ⌊(n : ℚ) + 1 / 2⌋.toNat = n := by
    rw [Int.floor_natCast_add, Int.floor_eq_zero_iff.mpr ⟨by norm_num, by norm_num⟩, add_zero,
      Int.toNat_natCast]
  rw [kept, Byte.toNat_ofDouble (readsDouble_double short) (Nat.cast_nonneg n) room, floor]

end BoxWindow

/-- Where 255 times the larger of the window and two periods of the image, on both axes, has at most
53 digits, all that a filter of bytes forms is a natural number of at most 53 digits: the sums over
whole periods of the rows, the window sums along the rows, the sums of those over whole periods of
the columns, and the sums over the window, with every number on the way to them.  Doubles do not
round sums and products of such numbers, so they hold the same ones at every stage, and a filter
that does not divide stores the sum of the window's samples, or 255. -/
theorem boxFilter_bytes_exact {window : BoxWindow} {source target : View UInt8 channels}
    {sample : Nat → Nat → Nat → UInt8} (accepted : checkChannels channels = .ok ())
    (same : source.extent = target.extent)
    (short : 255 * max window.width (2 * source.layout.width) *
      max window.height (2 * source.layout.height) < 2 ^ 53)
    (shows : source.Shows sample) :
    Counts Float (id : UInt8 → UInt8) ∧
    (∃ image, source.load? = some image ∧
      let across := WindowAxis.make image.width window.width window.border
      let down := WindowAxis.make image.height window.height window.border
      let checked := image.map Digits.ofByte
      Exact (across.rowPeriods? checked) (across.rowPeriods? image) ∧
      Exact (across.rowSums? checked) (across.rowSums? image) ∧
      Exact ((across.rowSums? checked).bind down.columnPeriods?)
        ((across.rowSums? image).bind down.columnPeriods?) ∧
      Exact (window.sums? checked) (window.sums? image)) ∧
    (window.normalize = false →
      ∃ written, boxFilter window source target = .ok (some written) ∧
        written.layout = target.layout ∧
        ∀ y x c, y < target.layout.height → x < target.layout.width → c < channels →
          ∃ stored, written.sample? y x c = some stored ∧
            stored.toNat = min 255 ((window.seen source.layout.height source.layout.width
              (fun line column => sample line column c) y x).map UInt8.toNat).sum) := by
  refine ⟨counts_float, ?_, ?_⟩
  · obtain ⟨image, loaded, height, width, tall, wide, visible⟩ := shows.exists_load?
    rw [← height, ← width] at short
    -- Every stage is counted in both arithmetics, where doubles take the bytes as they are.
    have rowPeriods := BoxWindow.rowPeriods_counted counts_float window visible wide short
    have rowSums := BoxWindow.rowSums_counted counts_float window visible wide short
    have columnPeriods :=
      BoxWindow.columnPeriods_counted counts_float window visible tall wide short
    have sums := BoxWindow.sums_counted counts_float window visible tall wide short
    rw [Grid.map_id] at rowPeriods rowSums columnPeriods sums
    exact ⟨image, loaded,
      (BoxWindow.rowPeriods_counted Digits.counts window visible wide short).exact rowPeriods,
      (BoxWindow.rowSums_counted Digits.counts window visible wide short).exact rowSums,
      (BoxWindow.columnPeriods_counted Digits.counts window visible tall wide short).exact
        columnPeriods,
      (BoxWindow.sums_counted Digits.counts window visible tall wide short).exact sums⟩
  · intro undivided
    obtain ⟨written, finished, layout, values⟩ :=
      exists_boxFilter_shows window shows accepted same
    refine ⟨written, finished, layout, fun y x c inImage inRow inPixel => ?_⟩
    refine ⟨_, values y x c (layout ▸ inImage) (layout ▸ inRow) inPixel, ?_⟩
    have rows : source.layout.height = target.layout.height := congrArg Extent.height same
    have columns : source.layout.width = target.layout.width := congrArg Extent.width same
    -- What is stored is the sum over the window, which room leaves its digits.
    have total := window.windowSum_eq (sample · · c) (rows ▸ inImage) (columns ▸ inRow)
    have room := (window.rooms (sample · · c) (rows ▸ inImage) (columns ▸ inRow) short).2.sum
    beta_reduce
    rw [window.sumAt_bytes _ (rows ▸ inImage) (columns ▸ inRow) short]
    exact BoxWindow.toNat_ofDouble_undivided undivided (total ▸ room)

/-- A row of a bright byte and two dark ones. -/
def brightRow : View UInt8 1 := ⟨⟨1, 3, 3⟩, #[200, 0, 7], Layout.check_eq_ok_iff.mp rfl⟩

/-- Windows of three samples sum to 400, 207 and 14, of which the first is stored as 255. -/
theorem boxFilter_brightRow : checkChannels 1 = .ok () ∧
    255 * max 3 (2 * 3) * max 1 (2 * 1) < 2 ^ 53 ∧
    brightRow.Shows (fun _ x _ => if x = 0 then 200 else if x = 1 then 0 else 7) ∧
    (∃ image, brightRow.load? = some image ∧
      Exact (BoxWindow.sums? ⟨3, 1, false, .replicate⟩ (image.map Digits.ofByte))
        (BoxWindow.sums? ⟨3, 1, false, .replicate⟩ image)) ∧
    ∃ written, boxFilter ⟨3, 1, false, .replicate⟩ brightRow brightRow = .ok (some written) ∧
      written.sample? 0 0 0 = some 255 ∧ written.sample? 0 1 0 = some 207 ∧
      written.sample? 0 2 0 = some 14 := by
  have shows : brightRow.Shows fun _ x _ => if x = 0 then 200 else if x = 1 then 0 else 7 :=
    View.shows_of_row rfl (by decide)
  -- The first window holds twice 200, which is more than a byte can hold.
  obtain ⟨-, ⟨image, loaded, -, -, -, sums⟩, stores⟩ := @boxFilter_bytes_exact 1
    ⟨3, 1, false, .replicate⟩ brightRow brightRow _ rfl rfl (by decide) shows
  obtain ⟨written, finished, -, values⟩ := stores rfl
  have stores : ∀ x, x < 3 → ∀ byte : UInt8, min 255 ((BoxWindow.seen
      ⟨3, 1, false, .replicate⟩ 1 3 (fun _ x => if x = 0 then 200 else if x = 1 then 0 else 7) 0
        x).map UInt8.toNat).sum = byte.toNat → written.sample? 0 x 0 = some byte := by
    intro x inRow byte total
    obtain ⟨stored, read, sum⟩ := values 0 x 0 (by decide) inRow (by decide)
    rw [read, UInt8.toNat_inj.mp (sum.trans total)]
  exact ⟨rfl, by decide, shows, ⟨image, loaded, sums⟩, written, finished,
    stores 0 (by decide) 255 (by decide +kernel), stores 1 (by decide) 207 (by decide +kernel),
    stores 2 (by decide) 14 (by decide +kernel)⟩

end Raster
