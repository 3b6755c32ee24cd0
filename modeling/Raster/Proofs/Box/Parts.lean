import Mathlib.Algebra.BigOperators.Group.Finset.Basic
import Mathlib.Algebra.Ring.Periodic
import Raster.Proofs.Border.Periodic

/-!
The parts of a window are the window.  Main statement: `sum_parts`, what is summed over copies of
the edge samples, whole periods and the run is what is summed over the folded window.
-/

namespace Raster

open Finset (range)
open scoped BigOperators

section Periodic

variable {M : Type} [AddCommMonoid M] {f : Nat → M} {period : Nat}

/-- A sum over one period does not depend on where it starts. -/
theorem sum_range_shift (periodic : Function.Periodic f period) (start : Nat) :
    ∑ i ∈ range period, f (start + i) = ∑ i ∈ range period, f i := by
  -- Moving the start by one drops the first term and adds its copy one period later.
  induction start with
  | zero => simp
  | succ start ih =>
    rw [← ih]
    cases period with
    | zero => rfl
    | succ rest =>
      rw [Finset.sum_range_succ, Finset.sum_range_succ' (fun i => f (start + i))]
      have wrapped : f (start + 1 + rest) = f (start + 0) := by
        rw [show start + 1 + rest = start + 0 + (rest + 1) by omega]
        exact periodic (start + 0)
      rw [wrapped]
      congr 1
      exact Finset.sum_congr rfl fun i _ => by rw [Nat.add_right_comm, Nat.add_assoc]

/-- A sum over consecutive terms is a sum over whole periods and a remainder. -/
theorem sum_range_periodic (periodic : Function.Periodic f period) (start size : Nat) :
    ∑ i ∈ range size, f (start + i) =
      (size / period) • ∑ i ∈ range period, f i + ∑ i ∈ range (size % period), f (start + i) := by
  -- The induction takes one whole period off the front at a time.
  have whole : ∀ count rest, ∑ i ∈ range (period * count + rest), f (start + i) =
      count • ∑ i ∈ range period, f i + ∑ i ∈ range rest, f (start + i) := by
    intro count rest
    induction count with
    | zero => simp
    | succ count ih =>
      rw [Nat.mul_succ, Nat.add_right_comm, Nat.add_comm _ period, Finset.sum_range_add,
        sum_range_shift periodic start, succ_nsmul', add_assoc, ← ih]
      congr 1
      refine Finset.sum_congr rfl fun i _ => ?_
      rw [show start + (period + i) = start + i + period by omega]
      exact periodic (start + i)
  rw [← whole, Nat.div_add_mod]

end Periodic

namespace WindowAxis

variable {length size position : Nat} {border : Border}

/-- The samples of a window's run. -/
def run (axis : WindowAxis) (parts : WindowParts) : List Nat :=
  (axis.index.drop parts.first).take (parts.stop - parts.first)

/-- A border with a period repeats the folded coordinates. -/
theorem fold_periodic {period : Nat} (positive : 0 < length)
    (periodic : periodOf length border = some period) :
    Function.Periodic (fun i : Nat => border.fold length i) period := by
  -- Coordinates a period apart have the same remainder.
  intro i
  show border.fold length ((i + period : Nat) : Int) = border.fold length i
  rw [← Border.fold_emod positive periodic, ← Border.fold_emod positive periodic i]
  congr 1
  push_cast
  exact Int.add_emod_right _ _

/-- Consecutive entries of a border table are the folds of consecutive coordinates. -/
theorem take_drop_table (length : Nat) (border : Border) {first count limit : Nat}
    (within : first + count ≤ limit) :
    ((border.table 0 limit length).drop first).take count =
      (List.range count).map fun i => border.fold length ((first + i : Nat) : Int) := by
  -- The table lists the samples of successive coordinates.
  apply List.ext_getElem?
  intro i
  simp only [Border.table, List.getElem?_take, List.getElem?_drop, List.getElem?_map]
  by_cases inside : i < count
  · simp [inside, List.getElem?_range (show first + i < limit by omega)]
  · simp [inside]

/-- The run of a window, given where it starts and how long it is. -/
theorem run_of_stop {axis : WindowAxis} {head tail periods first count : Nat} :
    axis.run ⟨head, tail, periods, first, first + count⟩ = (axis.index.drop first).take count := by
  rw [run, Nat.add_sub_cancel_left]

/-- On an axis with a period a window is whole periods and a run shorter than one. -/
theorem parts_of_periodic (size : Nat) {period : Nat}
    (periodic : periodOf length border = some period) (position : Nat) :
    (make length size border).parts position =
      ⟨0, 0, size / period, (((position : Int) - anchor size) % period).toNat,
        (((position : Int) - anchor size) % period).toNat + size % period⟩ := by
  -- A periodic axis has no edge samples, and the run is what whole periods leave.
  simp [parts, make, periodic, windowStart]

/-- On an axis without a period the index lists every sample once. -/
theorem index_of_aperiodic (aperiodic : periodOf length border = none) :
    (make length size border).index = List.range length := by
  simp [make, aperiodic]

/-- On an axis with a period the index lists two periods of folded coordinates. -/
theorem index_of_periodic {period : Nat} (periodic : periodOf length border = some period) :
    (make length size border).index = border.table 0 (2 * period) length := by
  simp [make, periodic]

/-- A whole period is the folds of the first coordinates from zero on. -/
theorem periodIndex_of_periodic (size : Nat) {period : Nat}
    (periodic : periodOf length border = some period) :
    (make length size border).periodIndex =
      (List.range period).map fun i : Nat => border.fold length i := by
  -- The index is a table over two periods, and its first half is one of them.
  have table := take_drop_table length border (show 0 + period ≤ 2 * period by omega)
  simpa [periodIndex, make, periodic] using table

/-- Where the edge samples extend, a window at a sample of the axis is copies of the first sample,
then consecutive samples, then copies of the last one. -/
theorem parts_of_aperiodic (size : Nat) (aperiodic : periodOf length border = none)
    (inside : position < length) :
    ∃ head tail first count, (make length size border).parts position =
        ⟨head, tail, 0, first, first + count⟩ ∧
      head + count + tail = size ∧ first + count ≤ length ∧
      (first : Int) = (position : Int) - anchor size + head ∧
      (head ≠ 0 → first = 0) ∧ (tail ≠ 0 → first + count = length) := by
  -- The window starts before, inside or after the axis, and ends so too.
  have half : anchor size ≤ size := Nat.div_le_self size 2
  have before : 0 < size → anchor size < size := fun positive => Nat.div_lt_self positive (by omega)
  simp only [parts, make, aperiodic, windowStart, windowStop, clamp, WindowParts.mk.injEq]
  refine ⟨_, _, _, _, ⟨rfl, rfl, trivial, rfl, (Nat.add_sub_cancel' ?_).symm⟩,
    ?_, ?_, ?_, ?_, ?_⟩ <;>
    omega

/-- The window's copies of an edge sample and its periods are no more than it has samples. -/
theorem parts_le (size : Nat) (border : Border) (inside : position < length) :
    ((make length size border).parts position).head ≤ size ∧
      ((make length size border).parts position).tail ≤ size ∧
      ((make length size border).parts position).periods ≤ size := by
  -- Either the parts add up to the window, or the periods are a quotient of it.
  cases periodic : periodOf length border with
  | none =>
    obtain ⟨head, tail, first, count, split, whole, -⟩ := parts_of_aperiodic size periodic inside
    rw [split]
    exact ⟨by dsimp only; omega, by dsimp only; omega, Nat.zero_le _⟩
  | some period =>
    rw [parts_of_periodic size periodic]
    exact ⟨Nat.zero_le _, Nat.zero_le _, Nat.div_le_self size period⟩

/-- Every entry of the index is a sample of the axis. -/
theorem mem_index_lt (positive : 0 < length) {sample : Nat}
    (member : sample ∈ (make length size border).index) : sample < length := by
  -- Every entry of the index is a folded coordinate.
  cases periodic : periodOf length border with
  | none =>
    rw [index_of_aperiodic periodic] at member
    exact List.mem_range.mp member
  | some period =>
    rw [index_of_periodic periodic] at member
    obtain ⟨i, _, rfl⟩ := List.mem_map.mp member
    exact border.fold_lt positive _

/-- Every entry of a run is a sample of the axis. -/
theorem mem_run_lt (size : Nat) (border : Border) (parts : WindowParts) (positive : 0 < length)
    {sample : Nat} (member : sample ∈ (make length size border).run parts) : sample < length :=
  mem_index_lt positive (List.mem_of_mem_drop (List.mem_of_mem_take member))

/-- Every entry of a whole period is a sample of the axis. -/
theorem mem_periodIndex_lt (positive : 0 < length) {sample : Nat}
    (member : sample ∈ (make length size border).periodIndex) : sample < length := by
  -- A whole period is part of the index.
  unfold periodIndex at member
  split at member
  · exact mem_index_lt positive (List.mem_of_mem_take member)
  · contradiction

/-- The run of a window at a sample of the axis never leaves the index. -/
theorem run?_parts (positive : 0 < length) (inside : position < length) :
    (make length size border).run? ((make length size border).parts position) =
      some ((make length size border).run ((make length size border).parts position)) := by
  refine if_pos ?_
  cases periodic : periodOf length border with
  | none =>
    -- Where the edge samples extend, the run is cut off at both ends of the axis.
    obtain ⟨head, tail, first, count, split, _, within, _⟩ :=
      parts_of_aperiodic size periodic inside
    rw [split, index_of_aperiodic periodic, List.length_range]
    exact ⟨Nat.le_add_right first count, within⟩
  | some period =>
    -- The run starts in the first of two periods and is shorter than one.
    obtain ⟨periodPos, _, _⟩ := periodOf_bounds positive periodic
    have first := Int.emod_lt_of_pos ((position : Int) - anchor size)
      (Int.natCast_pos.mpr periodPos)
    have count := Nat.mod_lt size periodPos
    rw [parts_of_periodic size periodic, index_of_periodic periodic]
    simp only [Border.table, List.length_map, List.length_range]
    omega

/-- Where the edge samples extend, the three parts of a window sum to the folded window. -/
theorem sum_parts_of_aperiodic {M : Type} [AddCommMonoid M] (f : Nat → M) (positive : 0 < length)
    (inside : position < length) (aperiodic : periodOf length border = none) :
    (((make length size border).run ((make length size border).parts position)).map f).sum +
        ((make length size border).parts position).head • f 0 +
        ((make length size border).parts position).tail • f (length - 1) =
      ∑ i ∈ range size, f (border.fold length ((position : Int) - anchor size + i)) := by
  obtain ⟨head, tail, first, count, split, whole, within, start, headFirst, tailLast⟩ :=
    parts_of_aperiodic size aperiodic inside
  -- The run is consecutive samples of the axis.
  have samples : ((List.range length).drop first).take count =
      (List.range count).map (first + ·) := by
    apply List.ext_getElem?
    intro i
    by_cases below : i < count
    · simp [below, List.getElem?_range (show first + i < length by omega)]
    · simp [below]
  -- Coordinates before the axis fold onto its first sample, those after it onto its last.
  have before : ∀ i ∈ range head,
      f (border.fold length ((position : Int) - anchor size + i)) = f 0 := by
    intro i member
    have below := Finset.mem_range.mp member
    rw [Border.fold_of_periodOf_eq_none positive aperiodic]
    congr 1
    omega
  have within : ∀ i ∈ range count,
      f (border.fold length ((position : Int) - anchor size + (head + i : Nat))) =
        f (first + i) := by
    intro i member
    have below := Finset.mem_range.mp member
    rw [Border.fold_of_periodOf_eq_none positive aperiodic]
    congr 1
    omega
  have after : ∀ i ∈ range tail,
      f (border.fold length ((position : Int) - anchor size + (head + count + i : Nat))) =
        f (length - 1) := by
    intro i member
    have below := Finset.mem_range.mp member
    rw [Border.fold_of_periodOf_eq_none positive aperiodic]
    congr 1
    omega
  -- The window is cut where the axis begins and ends, and each part is summed by itself.
  rw [split, run_of_stop, index_of_aperiodic aperiodic, samples]
  generalize (position : Int) - anchor size = coordinate at before within after ⊢
  rw [← whole, Finset.sum_range_add, Finset.sum_range_add, Finset.sum_congr rfl before,
    Finset.sum_congr rfl within, Finset.sum_congr rfl after, Finset.sum_const, Finset.sum_const,
    Finset.card_range, Finset.card_range, List.map_map, add_comm (head • f 0)]
  rfl

/-- Under a border with a period, whole periods and a run sum to the folded window. -/
theorem sum_parts_of_periodic {M : Type} [AddCommMonoid M] (f : Nat → M) (positive : 0 < length)
    {period : Nat} (periodic : periodOf length border = some period) (position : Nat) :
    (((make length size border).run ((make length size border).parts position)).map f).sum +
        ((make length size border).parts position).periods •
          ((make length size border).periodIndex.map f).sum =
      ∑ i ∈ range size, f (border.fold length ((position : Int) - anchor size + i)) := by
  obtain ⟨periodPos, _, _⟩ := periodOf_bounds positive periodic
  generalize start : (position : Int) - anchor size = coordinate
  have low := Int.emod_nonneg coordinate (show (period : Int) ≠ 0 by omega)
  have high := Int.emod_lt_of_pos coordinate (Int.natCast_pos.mpr periodPos)
  have remainder := Nat.mod_lt size periodPos
  -- The window folds like one that starts in the first period.
  have shifted : ∀ i : Nat, border.fold length (coordinate + i) =
      border.fold length (((coordinate % period).toNat + i : Nat) : Int) := by
    intro i
    rw [← Border.fold_emod positive periodic, ← Border.fold_emod positive periodic (Nat.cast _)]
    congr 1
    push_cast [Int.toNat_of_nonneg low]
    exact (Int.emod_add_emod coordinate period i).symm
  have repeats : Function.Periodic (fun i : Nat => f (border.fold length (i : Int))) period :=
    fun i => congrArg f (fold_periodic positive periodic i)
  rw [parts_of_periodic size periodic, start, run_of_stop, index_of_periodic periodic,
    take_drop_table length border (by omega), periodIndex_of_periodic size periodic,
    List.map_map, List.map_map,
    Finset.sum_congr rfl fun i _ => congrArg f (shifted i),
    sum_range_periodic repeats (coordinate % period).toNat size, add_comm]
  rfl

/-- Copies of the edge samples, whole periods and the run together are the folded window. -/
theorem sum_parts {M : Type} [AddCommMonoid M] (f : Nat → M) (positive : 0 < length)
    (inside : position < length) :
    (((make length size border).run ((make length size border).parts position)).map f).sum +
        ((make length size border).parts position).head • f 0 +
        ((make length size border).parts position).tail • f (length - 1) +
        ((make length size border).parts position).periods •
          ((make length size border).periodIndex.map f).sum =
      ∑ i ∈ range size, f (border.fold length ((position : Int) - anchor size + i)) := by
  cases periodic : periodOf length border with
  | none =>
    -- No period is ever taken where the edge samples extend.
    have empty : (make length size border).periodIndex = [] := by simp [periodIndex, make, periodic]
    rw [empty, List.map_nil, List.sum_nil, smul_zero, add_zero]
    exact sum_parts_of_aperiodic f positive inside periodic
  | some period =>
    -- On a periodic axis no copies of edge samples are counted.
    have edges := parts_of_periodic size periodic position
    rw [← sum_parts_of_periodic f positive periodic position, edges]
    simp only [zero_smul, add_zero]

end WindowAxis

end Raster
