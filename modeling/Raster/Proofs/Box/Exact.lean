import Raster.Proofs.Binary.Counting
import Raster.Proofs.Box.Locality

/-!
Window sums of bytes in arithmetics that count them (`Counts`).  Main statement: `sumAt_bytes`,
where 255 times the larger of the window and two periods of the image, on both axes, has at most 53
digits, no addition and no product of doubles on the way to a window sum is rounded.
-/

namespace Raster

open Finset (range)
open Binary
open Scalar (ofNat)
open scoped BigOperators

/-- An arithmetic counts bytes when it reads them as the numbers that they are, and sums and
products of natural numbers are exact in it as long as they have at most 53 digits. -/
structure Counts (D : Type) {α S : Type} [Scalar S] [Wide D S] [Element α S D]
    (sample : UInt8 → α) : Prop where
  -- Below 2 ^ 53 sums and products of whole numbers are themselves numbers of the arithmetic.
  add : ∀ {m n : Nat}, m + n < 2 ^ 53 → (ofNat m + ofNat n : D) = ofNat (m + n)
  mul : ∀ {m n : Nat}, m < 2 ^ 53 → n < 2 ^ 53 → m * n < 2 ^ 53 →
    (ofNat m * ofNat n : D) = ofNat (m * n)
  toDouble : ∀ byte : UInt8, (Element.toDouble (sample byte) : D) = ofNat byte.toNat
  total : ∀ run : List UInt8, (run.map UInt8.toNat).sum < 2 ^ 53 →
    (Element.total (run.map sample) : D) = ofNat (run.map UInt8.toNat).sum

variable {α S D : Type} [Scalar S] [Wide D S] [Element α S D] {sample : UInt8 → α}
variable {count m n : Nat}

/-- Bytes that are read as numbers and added one after another give their sum, as long as sums of at
most 53 digits are exact and it is one. -/
theorem foldl_add_bytes
    (add : ∀ {m n : Nat}, m + n < 2 ^ 53 → (ofNat m + ofNat n : D) = ofNat (m + n))
    (read : ∀ byte, (Element.toDouble (sample byte) : D) = ofNat byte.toNat)
    (bytes : List UInt8) (short : n + (bytes.map UInt8.toNat).sum < 2 ^ 53) :
    (bytes.map sample).foldl (fun sum byte => sum + Element.toDouble byte) (ofNat n : D) =
      ofNat (n + (bytes.map UInt8.toNat).sum) := by
  -- By induction on the bytes, from any sum that leaves room for them.
  induction bytes generalizing n with
  | nil => rfl
  | cons byte rest ih =>
    rw [List.map_cons, List.sum_cons, ← Nat.add_assoc] at short
    rw [List.map_cons, List.map_cons, List.foldl_cons, List.sum_cons, ← Nat.add_assoc,
      read, add (by omega), ih short]

/-- Doubles count bytes. -/
theorem counts_float : Counts Float (id : UInt8 → UInt8) where
  -- Doubles hold all whole numbers of 53 digits.
  add := double_add
  mul := double_mul
  toDouble _ := rfl
  total run _ := by
    rw [List.map_id, List.sum_eq_foldl, List.foldl_map]
    rfl

namespace Counts

/-- Copies of a natural number sum to its multiple when that has at most 53 digits. -/
theorem repeated (counts : Counts D sample) (copies : count < 2 ^ 53) (number : m < 2 ^ 53)
    (short : count * m < 2 ^ 53) : (repeated count (ofNat m) : D) = ofNat (count * m) := by
  -- What is counted zero times is not multiplied at all.
  cases count with
  | zero => rw [Nat.zero_mul]; rfl
  | succ count => exact counts.mul copies number short

/-- Adding copies of a natural number adds its multiple when the sum has at most 53 digits. -/
theorem addRepeated (counts : Counts D sample) (copies : count < 2 ^ 53) (number : m < 2 ^ 53)
    (short : n + count * m < 2 ^ 53) :
    (addRepeated count (ofNat n) (ofNat m) : D) = ofNat (n + count * m) := by
  -- The sum is left alone when nothing is to be added.
  cases count with
  | zero => rw [Nat.zero_mul]; rfl
  | succ count =>
    have product := counts.mul copies number (by omega)
    exact (congrArg (ofNat n + ·) product).trans (counts.add short)

/-- Adding natural numbers one after another adds their sum when it has at most 53 digits. -/
theorem foldl_addRepeated (counts : Counts D sample) (values : List Nat)
    (short : n + values.sum < 2 ^ 53) :
    (values.map ofNat).foldl (Raster.addRepeated 1) (ofNat n : D) = ofNat (n + values.sum) := by
  -- As for bytes, from any sum that leaves room for the values.
  induction values generalizing n with
  | nil => rfl
  | cons value rest ih =>
    rw [List.sum_cons, ← Nat.add_assoc] at short ⊢
    rw [List.map_cons, List.foldl_cons,
      counts.addRepeated (by norm_num) (by omega) (by omega), Nat.one_mul, ih short]

end Counts

namespace WindowAxis

variable {length size position : Nat} {border : Border}

/-- A period is at most twice the axis. -/
theorem length_periodIndex_le (size : Nat) (border : Border) (positive : 0 < length) :
    (make length size border).periodIndex.length ≤ 2 * length := by
  -- The samples of a period are taken from the index, and only where there is a period.
  unfold periodIndex
  split
  · rename_i period periodic
    exact (List.length_take_le _ _).trans (periodOf_bounds positive periodic).2.2
  · exact Nat.zero_le _

/-- What the parts of a window sum to, in natural numbers. -/
def partsSum (axis : WindowAxis) (position : Nat) (numbers : Nat → Nat) : Nat :=
  -- The run, the edge samples and the periods are counted as the kernel adds them.
  ((axis.run (axis.parts position)).map numbers).sum + (axis.parts position).head * numbers 0 +
    (axis.parts position).tail * numbers (axis.length - 1) +
    (axis.parts position).periods * (axis.periodIndex.map numbers).sum

/-- The parts of a window sum to its folded samples, one after another. -/
theorem partsSum_eq (size : Nat) (border : Border) (positive : 0 < length)
    (inside : position < length) (numbers : Nat → Nat) :
    (make length size border).partsSum position numbers = ((List.range size).map fun (j : Nat) =>
      numbers (border.fold length ((position : Int) + j - (size / 2 : Nat)))).sum := by
  -- The parts hold the samples of the window, each as often as the window does.
  have parts := @sum_parts length size position border _ _ numbers positive inside
  simp only [smul_eq_mul, ← add_sub_right_comm, anchor] at parts
  exact parts

/-- Numbers that are bounded sum to at most the bound for each of them. -/
theorem sum_map_le {numbers : Nat → Nat} {most : Nat} (bounded : ∀ sample, numbers sample ≤ most)
    (samples : List Nat) : (samples.map numbers).sum ≤ most * samples.length := by
  -- Every entry of the list is one of the bounded numbers.
  have bound := List.sum_le_card_nsmul (samples.map numbers) most fun number member => by
    obtain ⟨sample, -, rfl⟩ := List.mem_map.mp member
    exact bounded sample
  rwa [List.length_map, smul_eq_mul, Nat.mul_comm] at bound

/-- All that is counted and multiplied for a window, and what it sums to, has at most 53 digits. -/
structure Room (axis : WindowAxis) (position : Nat) (numbers : Nat → Nat) : Prop where
  -- Whatever the kernel multiplies or adds has at most 53 digits.
  head : (axis.parts position).head < 2 ^ 53
  tail : (axis.parts position).tail < 2 ^ 53
  periods : (axis.parts position).periods < 2 ^ 53
  first : numbers 0 < 2 ^ 53
  last : numbers (axis.length - 1) < 2 ^ 53
  period : (axis.periodIndex.map numbers).sum < 2 ^ 53
  sum : axis.partsSum position numbers < 2 ^ 53

/-- Numbers that are bounded leave room when the bound for the window, and for two periods, does. -/
theorem room_of_le (size : Nat) (border : Border) {numbers : Nat → Nat} {most : Nat}
    (positive : 0 < length)
    (inside : position < length) (bright : 0 < most) (bounded : ∀ sample, numbers sample ≤ most)
    (short : most * max size (2 * length) < 2 ^ 53) :
    (make length size border).Room position numbers ∧
      (make length size border).partsSum position numbers ≤ most * size := by
  obtain ⟨head, tail, periods⟩ := parts_le size border inside
  have window : most * size < 2 ^ 53 :=
    (Nat.mul_le_mul_left most (Nat.le_max_left _ _)).trans_lt short
  have twoPeriods : most * (2 * length) < 2 ^ 53 :=
    (Nat.mul_le_mul_left most (Nat.le_max_right _ _)).trans_lt short
  have fewer : size ≤ most * size := Nat.le_mul_of_pos_left size bright
  have single : most ≤ most * (2 * length) := Nat.le_mul_of_pos_right most (by omega)
  -- The parts are the folded window, and every number of that is bounded.
  have sum : (make length size border).partsSum position numbers ≤ most * size := by
    have bound := sum_map_le (fun j : Nat =>
      bounded (border.fold length ((position : Int) + j - (size / 2 : Nat)))) (List.range size)
    rwa [← partsSum_eq size border positive inside, List.length_range] at bound
  have period : ((make length size border).periodIndex.map numbers).sum ≤ most * (2 * length) :=
    (sum_map_le bounded _).trans
      (Nat.mul_le_mul_left most (length_periodIndex_le size border positive))
  refine ⟨⟨?_, ?_, ?_, ?_, ?_, ?_, ?_⟩, sum⟩
  · omega
  · omega
  · omega
  · exact (bounded 0).trans_lt (single.trans_lt twoPeriods)
  · exact (bounded _).trans_lt (single.trans_lt twoPeriods)
  · exact period.trans_lt twoPeriods
  · exact sum.trans_lt window

variable {axis : WindowAxis} {row : Nat → UInt8} {numbers : Nat → Nat}

/-- Where there is room, the sum over a whole period of a row of bytes is exact. -/
theorem Room.rowPeriod_eq (counts : Counts D sample)
    (room : axis.Room position fun column => (row column).toNat) :
    (axis.rowPeriod fun column => sample (row column) : D) =
      ofNat (axis.periodIndex.map fun column => (row column).toNat).sum := by
  -- A period is summed up from zero, byte by byte.
  have digits := room.period
  have added := foldl_add_bytes (n := 0) counts.add counts.toDouble (axis.periodIndex.map row)
    (by rw [List.map_map, Nat.zero_add]; exact digits)
  rw [Nat.zero_add, List.map_map, List.map_map] at added
  exact added

/-- Where there is room, the window sum along a row of bytes is exact. -/
theorem Room.rowSum_eq (counts : Counts D sample)
    (room : axis.Room position fun column => (row column).toNat) :
    (axis.rowSum (fun column => sample (row column)) position : D) =
      ofNat (axis.partsSum position fun column => (row column).toNat) := by
  -- No part is larger than what all of them sum to.
  have sum := room.sum
  unfold partsSum at sum
  beta_reduce at sum
  have run : (Element.total ((axis.run (axis.parts position)).map fun column =>
      sample (row column)) : D) =
        ofNat ((axis.run (axis.parts position)).map fun column => (row column).toNat).sum := by
    have digits : ((axis.run (axis.parts position)).map fun column =>
      (row column).toNat).sum < 2 ^ 53 := by omega
    have total := counts.total ((axis.run (axis.parts position)).map row)
      (by rw [List.map_map]; exact digits)
    rw [List.map_map, List.map_map] at total
    exact total
  -- Every part is exact, and then so is every sum on the way.
  rw [rowSum, partsSum, run, counts.toDouble, counts.toDouble, room.rowPeriod_eq counts,
    counts.repeated room.head room.first (by omega),
    counts.repeated room.tail room.last (by omega),
    counts.repeated room.periods room.period (by omega),
    counts.add (by omega), counts.add (by omega), counts.add (by omega)]

/-- Natural numbers added from the first one on sum exactly when their sum has 53 digits. -/
theorem foldl_lines (counts : Counts D sample) (lines : List Nat)
    (digits : (lines.map numbers).sum < 2 ^ 53) :
    (lines.map fun line => (ofNat (numbers line) : D)).foldl (addRepeated 1) Scalar.zero =
      ofNat (lines.map numbers).sum := by
  -- Adding a number once is adding it.
  have run := counts.foldl_addRepeated (n := 0) (lines.map numbers) (by rwa [Nat.zero_add])
  rw [Nat.zero_add, List.map_map] at run
  exact run

/-- Where there is room, the sum over a whole period of a column of natural numbers is exact. -/
theorem Room.columnPeriod_eq (counts : Counts D sample) (room : axis.Room position numbers) :
    (axis.columnPeriod fun line => (ofNat (numbers line) : D)) =
      ofNat (axis.periodIndex.map numbers).sum :=
  foldl_lines counts _ room.period

/-- Where there is room, the window sum down a column of natural numbers is exact. -/
theorem Room.columnSum_eq (counts : Counts D sample) (room : axis.Room position numbers) :
    axis.columnSum (fun line => (ofNat (numbers line) : D)) position =
      ofNat (axis.partsSum position numbers) := by
  -- As along a row, except that parts are added as they are multiplied.
  have sum := room.sum
  unfold partsSum at sum
  rw [columnSum, partsSum, room.columnPeriod_eq counts, foldl_lines counts _ (by omega),
    counts.addRepeated room.head room.first (by omega),
    counts.addRepeated room.tail room.last (by omega),
    counts.addRepeated room.periods room.period (by omega)]

end WindowAxis

namespace BoxWindow

/-- The samples of the window at pixel `x` of row `y`, line after line. -/
def seen {α : Type} (window : BoxWindow) (height width : Nat) (sample : Nat → Nat → α)
    (y x : Nat) : List α :=
  -- The window is read line by line, each line from left to right.
  (List.range window.height).flatMap fun i => (List.range window.width).map fun j =>
    sample (window.rowAt height y i) (window.columnAt width x j)

/-- A window has as many samples as its sides say. -/
theorem length_seen {α : Type} (window : BoxWindow) (height width : Nat) (sample : Nat → Nat → α)
    (y x : Nat) : (window.seen height width sample y x).length = window.width * window.height := by
  simp [seen, Nat.mul_comm]

variable {height width y x : Nat} {bytes : Nat → Nat → UInt8}

/-- What the window sees of one line sums to, in natural numbers. -/
def lineSum (window : BoxWindow) (width : Nat) (bytes : Nat → Nat → UInt8) (x line : Nat) : Nat :=
  (WindowAxis.make width window.width window.border).partsSum x fun column =>
    (bytes line column).toNat

/-- What the window sees sums to, line by line, in natural numbers. -/
def windowSum (window : BoxWindow) (height width : Nat) (bytes : Nat → Nat → UInt8)
    (y x : Nat) : Nat :=
  -- Lines are summed first, then the sums of the lines.
  (WindowAxis.make height window.height window.border).partsSum y
    (window.lineSum width bytes x)

/-- Where 255 times the larger of the window and two periods of the image, on both axes, has at most
53 digits, there is room along every line and down the sums of the lines. -/
theorem rooms (window : BoxWindow) (bytes : Nat → Nat → UInt8) (inImage : y < height)
    (inRow : x < width) (short :
      255 * max window.width (2 * width) * max window.height (2 * height) < 2 ^ 53) :
    (∀ line, (WindowAxis.make width window.width window.border).Room x fun column =>
      (bytes line column).toNat) ∧
    (WindowAxis.make height window.height window.border).Room y (window.lineSum width bytes x) := by
  have lines : 255 * max window.width (2 * width) < 2 ^ 53 :=
    (Nat.le_mul_of_pos_right _ (by omega)).trans_lt short
  -- Along every line the samples are at most 255, so the sums over lines are bounded.
  have across := fun line => WindowAxis.room_of_le window.width window.border (by omega) inRow
    (by norm_num) (fun column => Nat.le_of_lt_succ (bytes line column).toNat_lt) lines
  have bounded := fun line => (across line).2.trans
    (Nat.mul_le_mul_left 255 (Nat.le_max_left window.width (2 * width)))
  -- Down the columns the numbers are these sums, whose bound takes the place of 255.
  exact ⟨fun line => (across line).1, (WindowAxis.room_of_le window.height window.border (by omega)
    inImage (by omega) bounded short).1⟩

/-- The parts of a window and of its lines sum to the samples that the window sees. -/
theorem windowSum_eq (window : BoxWindow) (bytes : Nat → Nat → UInt8) (inImage : y < height)
    (inRow : x < width) :
    window.windowSum height width bytes y x =
      ((window.seen height width bytes y x).map UInt8.toNat).sum := by
  -- Both sum the same samples, the one by lines and parts and the other in the order of the window.
  rw [windowSum, WindowAxis.partsSum_eq _ _ (by omega) inImage, seen, List.map_flatMap,
    List.flatMap_def, List.sum_flatten, List.map_map]
  simp only [lineSum, WindowAxis.partsSum_eq _ _ (Nat.zero_lt_of_lt inRow) inRow, List.map_map,
    Function.comp_def, rowAt, columnAt]

/-- Where there is room for a window, its sum of bytes is exact. -/
theorem sumAt_eq (counts : Counts D sample) (window : BoxWindow) (bytes : Nat → Nat → UInt8)
    (inImage : y < height) (inRow : x < width) (short :
      255 * max window.width (2 * width) * max window.height (2 * height) < 2 ^ 53) :
    (window.sumAt height width (fun line column => sample (bytes line column)) y x : D) =
      ofNat (window.windowSum height width bytes y x) := by
  -- The lines have room for their sums, and their sums have room down the column.
  obtain ⟨across, down⟩ := window.rooms bytes inImage inRow short
  rw [sumAt, funext fun line => (across line).rowSum_eq counts]
  exact down.columnSum_eq counts

/-- In doubles the window sum of bytes is the sum of the samples that the window sees, where 255
times the larger of the window and two periods of the image, on both axes, has at most 53 digits. -/
theorem sumAt_bytes (window : BoxWindow) (sample : Nat → Nat → UInt8) (inImage : y < height)
    (inRow : x < width) (short :
      255 * max window.width (2 * width) * max window.height (2 * height) < 2 ^ 53) :
    (window.sumAt height width sample y x : Float) =
      double ((window.seen height width sample y x).map UInt8.toNat).sum :=
  (window.sumAt_eq counts_float sample inImage inRow short).trans
    (congrArg double (window.windowSum_eq sample inImage inRow))

end BoxWindow

end Raster
