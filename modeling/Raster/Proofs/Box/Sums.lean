import Raster.Box.Sums
import Raster.Proofs.Box.Parts
import Raster.Proofs.Grid

/-!
What a box filter computes at one position, as a function of the samples it reads.  Main statement:
`exists_filter?`, filtering never faults and stores that function's value at every position.
-/

namespace Raster

open Scalar (zero)

variable {α S D : Type} [Scalar S] [Wide D S] [Element α S D] {channels : Nat}

namespace WindowAxis

/-- The sum over one whole period of a row. -/
def rowPeriod (axis : WindowAxis) (row : Nat → α) : D :=
  (axis.periodIndex.map row).foldl (fun sum sample => sum + Element.toDouble sample) zero

/-- The sum over the window at pixel `x` of a row. -/
def rowSum (axis : WindowAxis) (row : Nat → α) (x : Nat) : D :=
  -- The run is added first, then the edges, then the periods.
  let parts := axis.parts x
  Element.total ((axis.run parts).map row) + repeated parts.head (Element.toDouble (row 0))
    + repeated parts.tail (Element.toDouble (row (axis.length - 1)))
    + repeated parts.periods (axis.rowPeriod row)

/-- The sum of row sums over one whole period of a column. -/
def columnPeriod (axis : WindowAxis) (column : Nat → D) : D :=
  (axis.periodIndex.map column).foldl (addRepeated 1) zero

/-- The sum of row sums over the window at row `y` of a column. -/
def columnSum (axis : WindowAxis) (column : Nat → D) (y : Nat) : D :=
  -- The order is that of a row, but every part is added to the sum so far.
  let parts := axis.parts y
  let single := ((axis.run parts).map column).foldl (addRepeated 1) zero
  let withHead := addRepeated parts.head single (column 0)
  let withTail := addRepeated parts.tail withHead (column (axis.length - 1))
  addRepeated parts.periods withTail (axis.columnPeriod column)

variable {size : Nat} {border : Border}

/-- Summing whole periods of the rows of an image never faults. -/
theorem exists_rowPeriods? (size : Nat) (border : Border) {image : Grid α channels}
    {sample : Nat → Nat → Nat → α}
    (shows : image.Shows sample) (positive : 0 < image.width) :
    ∃ periods : Grid D channels, (make image.width size border).rowPeriods? image = some periods ∧
      periods.height = image.height ∧ periods.width = 1 ∧
      periods.Shows fun y _ c =>
        (make image.width size border).rowPeriod fun column => sample y column c := by
  -- Each line has one period, the sum over one period of its samples.
  refine Grid.exists_tabulate?_shows fun y x c inImage _ inPixel => ?_
  rw [shows.gather_row inImage inPixel fun _ => mem_periodIndex_lt positive]
  rfl

/-- Summing the rows of an image never faults and gives every row's window sums. -/
theorem exists_rowSums? (size : Nat) (border : Border) {image : Grid α channels}
    {sample : Nat → Nat → Nat → α}
    (shows : image.Shows sample) (positive : 0 < image.width) :
    ∃ sums : Grid D channels, (make image.width size border).rowSums? image = some sums ∧
      sums.height = image.height ∧ sums.width = image.width ∧
      sums.Shows fun y x c =>
        (make image.width size border).rowSum (fun column => sample y column c) x := by
  -- The sums over whole periods come first, one for each row and channel.
  obtain ⟨periods, builtPeriods, periodHeight, periodWidth, periodShows⟩ :=
    exists_rowPeriods? (D := D) size border shows positive
  -- Every read of a row sum, the edge samples and the run included, is inside the image.
  have sumReads : ∀ y x c, y < image.height → x < image.width → c < channels →
      (make image.width size border).rowSum? image periods y x c =
        some ((make image.width size border).rowSum (fun column => sample y column c) x) := by
    intro y x c inImage inRow inPixel
    have run := shows.gather_row inImage inPixel fun _ =>
      mem_run_lt size border ((make image.width size border).parts x) positive
    have last : less? image.width 1 = some (image.width - 1) := if_pos positive
    have period := periodShows y 0 c (by omega) (by omega) inPixel
    simp only [rowSum?, run?_parts positive inRow, run, shows y 0 c inImage positive inPixel, last,
      Option.bind_eq_bind, Option.bind_some,
      shows y (image.width - 1) c inImage (by omega) inPixel, period]
    rfl
  obtain ⟨sums, built, height, width, sumShows⟩ :=
    Grid.exists_tabulate?_shows sumReads
  refine ⟨sums, ?_, height, width, sumShows⟩
  rw [rowSums?, builtPeriods]
  exact built

/-- Summing whole periods of the columns of row sums never faults. -/
theorem exists_columnPeriods? (size : Nat) (border : Border) {rows : Grid D channels}
    {row : Nat → Nat → Nat → D}
    (shows : rows.Shows row) (positive : 0 < rows.height) :
    ∃ periods, (make rows.height size border).columnPeriods? rows = some periods ∧
      periods.height = 1 ∧ periods.width = rows.width ∧
      periods.Shows fun _ x c =>
        (make rows.height size border).columnPeriod fun line => row line x c := by
  -- The lines of a period are added up for every column.
  refine Grid.exists_tabulate?_shows fun y x c _ inRow inPixel => ?_
  rw [shows.gather_column inRow inPixel fun _ => mem_periodIndex_lt positive]
  rfl

/-- Summing the columns of row sums never faults and gives every column's window sums. -/
theorem exists_columnSums? (size : Nat) (border : Border) {rows : Grid D channels}
    {row : Nat → Nat → Nat → D}
    (shows : rows.Shows row) (positive : 0 < rows.height) :
    ∃ periods, (make rows.height size border).columnPeriods? rows = some periods ∧
      ∀ y x c, y < rows.height → x < rows.width → c < channels →
        (make rows.height size border).columnSum? rows periods y x c =
          some ((make rows.height size border).columnSum (fun line => row line x c) y) := by
  -- The sums over whole periods come first, one for each column and channel.
  obtain ⟨periods, builtPeriods, periodHeight, periodWidth, periodShows⟩ :=
    exists_columnPeriods? size border shows positive
  refine ⟨periods, builtPeriods, fun y x c inImage inRow inPixel => ?_⟩
  -- As along a row, the run, both edge rows and the period are all there.
  have run := shows.gather_column inRow inPixel fun _ =>
    mem_run_lt size border ((make rows.height size border).parts y) positive
  have last : less? rows.height 1 = some (rows.height - 1) := if_pos positive
  have period := periodShows 0 x c (by omega) (by omega) inPixel
  simp only [columnSum?, run?_parts positive inImage, run, shows 0 x c positive inRow inPixel, last,
    Option.bind_eq_bind, Option.bind_some,
    shows (rows.height - 1) x c (by omega) inRow inPixel, period]
  rfl

end WindowAxis

namespace BoxWindow

/-- The sum over the window at pixel `x` of row `y` of an image of one channel. -/
def sumAt (window : BoxWindow) (height width : Nat) (sample : Nat → Nat → α) (y x : Nat) : D :=
  (WindowAxis.make height window.height window.border).columnSum
    (fun line => (WindowAxis.make width window.width window.border).rowSum (sample line) x) y

variable {image : Grid α channels} {sample : Nat → Nat → Nat → α}

/-- Window sums never fault and depend on one channel alone. -/
theorem exists_sums? (window : BoxWindow) (shows : image.Shows sample)
    (tall : 0 < image.height) (wide : 0 < image.width) :
    ∃ sums : Grid D channels, window.sums? image = some sums ∧
      sums.height = image.height ∧ sums.width = image.width ∧
      sums.Shows fun y x c =>
        window.sumAt image.height image.width (fun line column => sample line column c) y x := by
  -- Row sums exist for every row, and column sums are taken over them.
  obtain ⟨rows, builtRows, height, width, rowShows⟩ :=
    WindowAxis.exists_rowSums? window.width window.border shows wide
  obtain ⟨periods, builtPeriods, columnReads⟩ :=
    WindowAxis.exists_columnSums? window.height window.border rowShows (by omega)
  rw [height] at builtPeriods columnReads
  rw [width] at columnReads
  obtain ⟨sums, built, sumHeight, sumWidth, sumShows⟩ :=
    Grid.exists_tabulate?_shows columnReads
  refine ⟨sums, ?_, sumHeight, sumWidth, sumShows⟩
  simp only [sums?, builtRows, builtPeriods, Option.bind_eq_bind, Option.bind_some]
  exact built

/-- The numbers that a filter stores never fault and depend on one channel alone. -/
theorem exists_values? (window : BoxWindow) (shows : image.Shows sample)
    (tall : 0 < image.height) (wide : 0 < image.width) :
    ∃ values : Grid D channels, window.values? image = some values ∧
      values.height = image.height ∧ values.width = image.width ∧
      values.Shows fun y x c => window.scaled
        (window.sumAt image.height image.width (fun line column => sample line column c) y x) := by
  -- Scaling is applied to every window sum that exists.
  obtain ⟨sums, built, height, width, sumShows⟩ := window.exists_sums? shows tall wide
  have reads : ∀ y x c, y < image.height → x < image.width → c < channels →
      (sums.at? y x c).map window.scaled = some (window.scaled
        (window.sumAt image.height image.width (fun line column => sample line column c) y x)) := by
    intro y x c inImage inRow inPixel
    rw [sumShows y x c (by omega) (by omega) inPixel]
    rfl
  obtain ⟨values, builtValues, extents⟩ :=
    Grid.exists_tabulate?_shows reads
  refine ⟨values, ?_, extents⟩
  rw [values?, built]
  exact builtValues

/-- Filtering never faults and stores at each position the scaled sum of its window. -/
theorem exists_filter? (window : BoxWindow) (shows : image.Shows sample)
    (tall : 0 < image.height) (wide : 0 < image.width) :
    ∃ filtered, window.filter? image = some filtered ∧
      filtered.height = image.height ∧ filtered.width = image.width ∧
      filtered.Shows fun y x c => Element.ofDouble (window.scaled
        (window.sumAt image.height image.width (fun line column => sample line column c) y x)) := by
  -- Storing is applied to every value that exists.
  obtain ⟨values, built, height, width, valueShows⟩ := window.exists_values? shows tall wide
  have reads : ∀ y x c, y < image.height → x < image.width → c < channels →
      (values.at? y x c).map Element.ofDouble = some (Element.ofDouble (window.scaled
        (window.sumAt image.height image.width
          (fun line column => sample line column c) y x)) : α) := by
    intro y x c inImage inRow inPixel
    rw [valueShows y x c (by omega) (by omega) inPixel]
    rfl
  obtain ⟨filtered, builtFiltered, extents⟩ :=
    Grid.exists_tabulate?_shows reads
  refine ⟨filtered, ?_, extents⟩
  rw [filter?, built]
  exact builtFiltered

end BoxWindow

end Raster
