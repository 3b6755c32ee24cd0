import Mathlib.Algebra.BigOperators.Ring.Finset
import Mathlib.Algebra.Order.Ring.Rat
import Mathlib.Tactic.Ring
import Raster.Proofs.Box.Sums
import Raster.Proofs.View

/-!
Box filtering in exact arithmetic.  Main statement: `exists_values?_eq_directSum`, the number formed
at a position is the sum over its window, every window sample folded onto the image on its own.
-/

namespace Raster

open Finset (range)
open scoped BigOperators

/-- The sum over the window at pixel `x` of row `y`, one folded sample at a time. -/
def BoxWindow.directSum (window : BoxWindow) (height width : Nat) (sample : Nat → Nat → ℚ)
    (y x : Nat) : ℚ :=
  -- Even sides reach one sample further back than forward.
  ∑ i ∈ range window.height, ∑ j ∈ range window.width,
    sample (window.border.fold height ((y : Int) + i - (window.height / 2 : Nat)))
      (window.border.fold width ((x : Int) + j - (window.width / 2 : Nat)))

/-- Copies of a rational sum to its multiple. -/
theorem repeated_rat (count : Nat) (value : ℚ) : repeated count value = count • value := by
  -- Counting is multiplying, and nothing counted zero times is there.
  cases count with
  | zero => rw [zero_smul]; rfl
  | succ count => rw [nsmul_eq_mul]; rfl

/-- Adding copies of a rational adds its multiple. -/
theorem addRepeated_rat (count : Nat) (sum value : ℚ) :
    addRepeated count sum value = sum + count • value := by
  -- Adding a multiple is adding the value as often as it is counted.
  cases count with
  | zero => rw [zero_smul, add_zero]; rfl
  | succ count => rw [nsmul_eq_mul]; rfl

/-- Adding rationals one after another adds their sum. -/
theorem foldl_addRepeated_rat (values : List ℚ) (start : ℚ) :
    values.foldl (addRepeated 1) start = start + values.sum := by
  -- By induction on the values, from any sum.
  induction values generalizing start with
  | nil => simp
  | cons value rest ih => rw [List.foldl_cons, ih, addRepeated_rat, one_smul, List.sum_cons]; ring

/-- A run of rationals is totalled to its sum. -/
theorem total_rat (run : List ℚ) : (Element.total run : ℚ) = run.sum :=
  List.sum_eq_foldl.symm

namespace WindowAxis

variable {length size position : Nat} {border : Border}

/-- The exact window sum along a row is the sum of its folded samples. -/
theorem rowSum_rat (positive : 0 < length) (inside : position < length) (row : Nat → ℚ) :
    (make length size border).rowSum row position =
      ∑ j ∈ range size, row (border.fold length ((position : Int) - anchor size + j)) := by
  -- In exact arithmetic repeated additions are multiples, so the parts add up to the window.
  have period : (make length size border).rowPeriod row =
      ((make length size border).periodIndex.map row).sum := total_rat _
  rw [← sum_parts row positive inside, rowSum, total_rat, repeated_rat, repeated_rat, repeated_rat,
    period]
  rfl

/-- The exact window sum down a column is the sum of its folded row sums. -/
theorem columnSum_rat (positive : 0 < length) (inside : position < length) (column : Nat → ℚ) :
    (make length size border).columnSum column position =
      ∑ i ∈ range size, column (border.fold length ((position : Int) - anchor size + i)) := by
  -- As for rows, with the sums of the rows in the place of samples.
  have zero : (Scalar.zero : ℚ) = 0 := rfl
  rw [← sum_parts column positive inside, columnSum, addRepeated_rat, addRepeated_rat,
    addRepeated_rat, columnPeriod, foldl_addRepeated_rat, foldl_addRepeated_rat, zero, zero_add,
    zero_add]
  rfl

end WindowAxis

namespace BoxWindow

variable {height width y x : Nat}

/-- Summing rows and then columns visits every window sample once. -/
theorem sumAt_rat (window : BoxWindow) (sample : Nat → Nat → ℚ) (inImage : y < height)
    (inRow : x < width) :
    window.sumAt height width sample y x = window.directSum height width sample y x := by
  -- The row of each window line is summed first, then the column of row sums.
  have rows : ∀ line, (WindowAxis.make width window.width window.border).rowSum (sample line) x =
      ∑ j ∈ range window.width, sample line
        (window.border.fold width ((x : Int) - anchor window.width + j)) :=
    fun line => WindowAxis.rowSum_rat (by omega) inRow (sample line)
  rw [sumAt, WindowAxis.columnSum_rat (by omega) inImage, directSum]
  refine Finset.sum_congr rfl fun i _ => ?_
  rw [rows, anchor, anchor, ← add_sub_right_comm]
  exact Finset.sum_congr rfl fun j _ => by rw [← add_sub_right_comm]

/-- Scaling divides an exact sum by the number of window samples when the window is normalized. -/
theorem scaled_rat (window : BoxWindow) (sum : ℚ) :
    window.scaled sum =
      if window.normalize then sum * (1 / ((window.width : ℚ) * window.height)) else sum := by
  rfl

/-- In exact arithmetic a box filter forms the direct window sum at every position, times the
reciprocal of the window's size when it is normalized, whatever the layout of its source. -/
theorem exists_values?_eq_directSum {α : Type} {channels : Nat} (window : BoxWindow)
    (source : View α channels) (number : α → ℚ) :
    ∃ (sample : Nat → Nat → Nat → α) (image : Grid α channels) (values : Grid ℚ channels),
      source.Shows sample ∧ source.load? = some image ∧
      window.values? (image.map number) = some values ∧
      values.height = source.layout.height ∧ values.width = source.layout.width ∧
      ∀ y x c, y < source.layout.height → x < source.layout.width → c < channels →
        values.at? y x c = some
          (window.directSum source.layout.height source.layout.width
              (fun line column => number (sample line column c)) y x *
            if window.normalize then 1 / ((window.width : ℚ) * window.height) else 1) := by
  -- The image is read through the numbers of its samples, and each window is summed exactly.
  obtain ⟨sample, visible⟩ := source.exists_shows
  obtain ⟨image, loaded, height, width, tall, wide, shows⟩ := visible.exists_load?
  obtain ⟨values, built, valueHeight, valueWidth, valueShows⟩ :=
    window.exists_values? (shows.map number) tall wide
  refine ⟨sample, image, values, visible, loaded, built, valueHeight.trans height,
    valueWidth.trans width, fun y x c inImage inRow inPixel => ?_⟩
  have extent : (image.map number).height = source.layout.height ∧
      (image.map number).width = source.layout.width := ⟨height, width⟩
  have value := valueShows y x c (by omega) (by omega) inPixel
  simp only [extent.1, extent.2, window.sumAt_rat _ inImage inRow, scaled_rat] at value
  rw [value]
  split <;> simp

end BoxWindow

end Raster
