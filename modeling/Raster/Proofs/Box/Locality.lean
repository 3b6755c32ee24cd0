import Mathlib.Algebra.BigOperators.Group.Finset.Basic
import Mathlib.Algebra.Order.Group.Multiset
import Raster.Proofs.Box.Sums
import Raster.Proofs.Launch.Finish

/-!
Box filters look at their window alone.  Main statements: `WindowAxis.mem_parts_iff`, the parts of a
window name the samples that its coordinates fold onto and no others, and
`boxFilter_eq_of_window_eq`, what a filter stores depends on the samples of the window, whatever
numbers, infinities or NaN the rest of the image holds.
-/

namespace Raster

open Finset (range)
open scoped BigOperators

variable {α S D : Type} [Scalar S] [Wide D S] [Element α S D] {channels : Nat}

/-- No copies do not depend on what is copied. -/
theorem repeated_congr {count : Nat} {value other : D} (same : count ≠ 0 → value = other) :
    repeated count value = repeated count other := by
  -- A value that is counted zero times is not looked at.
  by_cases empty : count = 0
  · rw [repeated, repeated, if_pos empty, if_pos empty]
  · rw [same empty]

/-- Adding no copies does not depend on what is copied. -/
theorem addRepeated_congr {count : Nat} {sum other value copy : D} (start : sum = other)
    (same : count ≠ 0 → value = copy) :
    addRepeated count sum value = addRepeated count other copy := by
  -- Nor is it when it is added to a sum.
  subst start
  by_cases empty : count = 0
  · rw [addRepeated, addRepeated, if_pos empty, if_pos empty]
  · rw [same empty]

namespace WindowAxis

variable {length size position : Nat} {border : Border}

/-- The samples of a list, each added to the collection on its own, are the list. -/
theorem sum_map_singleton (samples : List Nat) :
    (samples.map fun sample => ({sample} : Multiset Nat)).sum = (samples : Multiset Nat) := by
  rw [← Multiset.sum_coe, ← Multiset.map_coe, Multiset.sum_map_singleton]

/-- The parts of a window name a sample exactly when a coordinate of the window folds onto it. -/
theorem mem_parts_iff (size : Nat) (border : Border) (positive : 0 < length)
    (inside : position < length) (sample : Nat) :
    (((sample ∈ (make length size border).run ((make length size border).parts position) ∨
        ((make length size border).parts position).head ≠ 0 ∧ sample = 0) ∨
        ((make length size border).parts position).tail ≠ 0 ∧ sample = length - 1) ∨
        ((make length size border).parts position).periods ≠ 0 ∧
          sample ∈ (make length size border).periodIndex) ↔
      ∃ j < size, border.fold length ((position : Int) + j - (size / 2 : Nat)) = sample := by
  -- The parts add up to the folded window, and so they do as collections of samples.
  have parts := @sum_parts length size position border _ _
    (fun sample => ({sample} : Multiset Nat)) positive inside
  have member := congrArg (sample ∈ ·) parts
  simp only [sum_map_singleton, Multiset.mem_add, Multiset.mem_nsmul, Multiset.mem_coe,
    Multiset.mem_singleton, Multiset.mem_sum, Finset.mem_range, eq_iff_iff, anchor] at member
  rw [member]
  refine exists_congr fun j => and_congr_right fun _ => ?_
  rw [eq_comm, ← add_sub_right_comm]

/-- Every part that a window counts, it fills with the same numbers from `values` as from
`others`. -/
structure SameParts {β : Type} (axis : WindowAxis) (position : Nat) (values others : Nat → β) :
    Prop where
  -- Parts that count nothing are exempt, since their samples may lie outside the window.
  run : (axis.run (axis.parts position)).map values = (axis.run (axis.parts position)).map others
  head : (axis.parts position).head ≠ 0 → values 0 = others 0
  tail : (axis.parts position).tail ≠ 0 → values (axis.length - 1) = others (axis.length - 1)
  period : (axis.parts position).periods ≠ 0 →
    axis.periodIndex.map values = axis.periodIndex.map others

/-- Numbers that agree on the window agree on all its parts. -/
theorem sameParts_of_window_eq {β : Type} {values others : Nat → β} (positive : 0 < length)
    (inside : position < length)
    (agree : ∀ j < size, values (border.fold length ((position : Int) + j - (size / 2 : Nat))) =
      others (border.fold length ((position : Int) + j - (size / 2 : Nat)))) :
    (make length size border).SameParts position values others := by
  -- Every sample that a part names lies in the window.
  have named := mem_parts_iff size border positive inside
  have same : ∀ sample, (∃ j < size,
      border.fold length ((position : Int) + j - (size / 2 : Nat)) = sample) →
      values sample = others sample := by
    rintro _ ⟨j, below, rfl⟩
    exact agree j below
  constructor
  · exact List.map_congr_left fun sample member =>
      same sample ((named sample).mp (.inl (.inl (.inl member))))
  · exact fun counted => same 0 ((named 0).mp (.inl (.inl (.inr ⟨counted, rfl⟩))))
  · exact fun counted => same (length - 1) ((named (length - 1)).mp (.inl (.inr ⟨counted, rfl⟩)))
  · exact fun counted => List.map_congr_left fun sample member =>
      same sample ((named sample).mp (.inr ⟨counted, member⟩))

/-- The window sum along a row depends on the samples of the window's parts. -/
theorem SameParts.rowSum_eq {axis : WindowAxis} {row other : Nat → α}
    (same : axis.SameParts position row other) :
    axis.rowSum row position = axis.rowSum other position := by
  -- The period's sum is formed for every row, but only counted where the window holds a period.
  have period : (axis.parts position).periods ≠ 0 → axis.rowPeriod row = axis.rowPeriod other :=
    fun counted => by rw [rowPeriod, rowPeriod, same.period counted]
  have head := repeated_congr fun counted => congrArg Element.toDouble (same.head counted)
  have tail := repeated_congr fun counted => congrArg Element.toDouble (same.tail counted)
  simp only [rowSum, same.run, head, tail, repeated_congr period]

/-- The window sum down a column depends on the row sums of the window's parts. -/
theorem SameParts.columnSum_eq {axis : WindowAxis} {column other : Nat → D}
    (same : axis.SameParts position column other) :
    axis.columnSum column position = axis.columnSum other position := by
  -- As along a row, with the sums of the rows in the place of samples.
  have period : (axis.parts position).periods ≠ 0 →
      axis.columnPeriod column = axis.columnPeriod other :=
    fun counted => by rw [columnPeriod, columnPeriod, same.period counted]
  simp only [columnSum, same.run]
  exact addRepeated_congr (addRepeated_congr (addRepeated_congr rfl same.head) same.tail) period

end WindowAxis

namespace BoxWindow

variable {height width y x : Nat}

/-- The image row that line `i` of the window at row `y` reads. -/
def rowAt (window : BoxWindow) (height y i : Nat) : Nat :=
  window.border.fold height ((y : Int) + i - (window.height / 2 : Nat))

/-- The image column that place `j` of a line of the window at pixel `x` reads. -/
def columnAt (window : BoxWindow) (width x j : Nat) : Nat :=
  window.border.fold width ((x : Int) + j - (window.width / 2 : Nat))

/-- The window sum at a position depends on the pixels of the window. -/
theorem sumAt_congr (window : BoxWindow) {sample other : Nat → Nat → α}
    (inImage : y < height) (inRow : x < width)
    (agree : ∀ i < window.height, ∀ j < window.width,
      sample (window.rowAt height y i) (window.columnAt width x j) =
        other (window.rowAt height y i) (window.columnAt width x j)) :
    window.sumAt height width sample y x = window.sumAt height width other y x := by
  -- The lines of the window have equal row sums, and no other line is counted.
  have lines : ∀ i < window.height,
      (WindowAxis.make width window.width window.border).rowSum
          (sample (window.rowAt height y i)) x =
        (WindowAxis.make width window.width window.border).rowSum
          (other (window.rowAt height y i)) x :=
    fun i below => (WindowAxis.sameParts_of_window_eq (by omega) inRow (agree i below)).rowSum_eq
  have parts : WindowAxis.SameParts (WindowAxis.make height window.height window.border) y
      (fun line => (WindowAxis.make width window.width window.border).rowSum (sample line) x)
      (fun line => (WindowAxis.make width window.width window.border).rowSum (other line) x) :=
    WindowAxis.sameParts_of_window_eq (by omega) inImage lines
  exact parts.columnSum_eq

end BoxWindow

/--
A box filter stores the same sample wherever its window shows the same samples.

Two sources of one extent may hold anything outside the window, infinities and NaN included, and in
the other channels; a window larger than the image, or one that holds many periods of its border, is
no exception.
-/
theorem boxFilter_eq_of_window_eq (depth : Depth) {channels : Nat} (window : BoxWindow)
    (source other target : View depth.Sample channels) (y x c : Nat)
    (accepted : checkChannels channels = .ok ())
    (one : source.extent = other.extent) (same : source.extent = target.extent)
    (inside : y < target.layout.height ∧ x < target.layout.width ∧ c < channels)
    (agree : ∀ i < window.height, ∀ j < window.width,
      source.sample? (window.rowAt target.layout.height y i)
          (window.columnAt target.layout.width x j) c =
        other.sample? (window.rowAt target.layout.height y i)
          (window.columnAt target.layout.width x j) c) :
    ∃ written again stored,
      boxFilter window source target = .ok (some written) ∧
      boxFilter window other target = .ok (some again) ∧
      written.sample? y x c = some stored ∧ again.sample? y x c = some stored := by
  obtain ⟨sample, shows⟩ := source.exists_shows
  obtain ⟨copy, showsOther⟩ := other.exists_shows
  obtain ⟨written, finished, layout, visible⟩ :=
    exists_boxFilter_shows window shows accepted same
  obtain ⟨again, finishedAgain, layoutAgain, visibleAgain⟩ :=
    exists_boxFilter_shows window showsOther accepted (one.symm.trans same)
  have height : source.layout.height = target.layout.height := congrArg Extent.height same
  have width : source.layout.width = target.layout.width := congrArg Extent.width same
  have heights : other.layout.height = target.layout.height := congrArg Extent.height (one ▸ same)
  have widths : other.layout.width = target.layout.width := congrArg Extent.width (one ▸ same)
  -- Coordinates of the window fold into the image, where both sources show their samples.
  have pixels : ∀ i < window.height, ∀ j < window.width,
      sample (window.rowAt target.layout.height y i) (window.columnAt target.layout.width x j) c =
        copy (window.rowAt target.layout.height y i)
          (window.columnAt target.layout.width x j) c := by
    intro i lines j places
    have row : window.rowAt target.layout.height y i < target.layout.height :=
      Border.fold_lt _ target.fits.height_pos _
    have column : window.columnAt target.layout.width x j < target.layout.width :=
      Border.fold_lt _ target.fits.width_pos _
    have read := agree i lines j places
    rw [shows _ _ c (by omega) (by omega) inside.2.2,
      showsOther _ _ c (by omega) (by omega) inside.2.2] at read
    exact Option.some.inj read
  -- Both runs store their scaled window sums, and the two sums are the same.
  have sums : window.sumAt target.layout.height target.layout.width
      (fun line column => sample line column c) y x =
        window.sumAt target.layout.height target.layout.width
          (fun line column => copy line column c) y x :=
    window.sumAt_congr inside.1 inside.2.1 pixels
  refine ⟨written, again, _, finished, finishedAgain,
    visible y x c (by rw [layout]; exact inside.1) (by rw [layout]; exact inside.2.1)
      inside.2.2, ?_⟩
  have stored := visibleAgain y x c (by rw [layoutAgain]; exact inside.1)
    (by rw [layoutAgain]; exact inside.2.1) inside.2.2
  simp only [heights, widths, ← sums] at stored
  simp only [height, width]
  exact stored

/-- A row of the singles one, two and a third whose bits are given. -/
def onesRow (third : UInt32) : View Depth.single.Sample 1 :=
  ⟨⟨1, 3, 3⟩, #[⟨0x3f800000⟩, ⟨0x40000000⟩, ⟨third⟩], Layout.check_eq_ok_iff.mp rfl⟩

/-- An infinity and a NaN beside a window of three samples give the same filtered sample. -/
theorem boxFilter_eq_beside_infinity :
    (∀ i < 1, ∀ j < 3,
      (onesRow 0x7f800000).sample? (BoxWindow.rowAt ⟨3, 1, true, .standard⟩ 1 0 i)
          (BoxWindow.columnAt ⟨3, 1, true, .standard⟩ 3 0 j) 0 =
        (onesRow 0x7fc00000).sample? (BoxWindow.rowAt ⟨3, 1, true, .standard⟩ 1 0 i)
          (BoxWindow.columnAt ⟨3, 1, true, .standard⟩ 3 0 j) 0) ∧
    ∃ written again stored,
      boxFilter ⟨3, 1, true, .standard⟩ (onesRow 0x7f800000) (onesRow 0) = .ok (some written) ∧
      boxFilter ⟨3, 1, true, .standard⟩ (onesRow 0x7fc00000) (onesRow 0) = .ok (some again) ∧
      written.sample? 0 0 0 = some stored ∧ again.sample? 0 0 0 = some stored :=
  -- Only the last sample differs, and it lies outside the window of the first.
  ⟨by decide, boxFilter_eq_of_window_eq .single ⟨3, 1, true, .standard⟩ (onesRow 0x7f800000)
    (onesRow 0x7fc00000) (onesRow 0) 0 0 0 rfl rfl rfl (by decide) (by decide)⟩

end Raster
