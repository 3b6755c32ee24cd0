import Raster.Box.Axis.Word
import Raster.Proofs.Box.Locality

/-!
The parts of a window, collected.  Main statement: `parts_fold_window`, the parts that are formed in
words are the folded window as a collection of samples, their run is no longer than two axes
whatever the size of the window, and a window that holds a whole period holds every sample.
-/

namespace Raster.WindowAxis

variable {length size position : Nat} {border : Border}

/-- On every axis whose fourfold length is a signed word, words form the axis of whole numbers. -/
theorem makeWord?_eq_make (positive : 0 < length) (short : 4 * length < 2 ^ 63) (size : Nat)
    (border : Border) : makeWord? length size border = some (make length size border) := by
  have limit : Word.signedLimit = 2 ^ 63 := rfl
  have word : wordLimit = 2 ^ 64 := rfl
  rw [makeWord?, periodWord?_eq_periodOf positive (by omega), Option.bind_eq_bind,
    Option.bind_some]
  unfold make
  cases periodic : periodOf length border with
  | none => rfl
  | some period =>
    -- The table has two periods, and a period is no longer than two axes.
    obtain ⟨-, -, most⟩ := periodOf_bounds positive periodic
    have entries : Word.product? 2 period = some (2 * period) := if_pos (by omega)
    have index : border.tableWord? 0 (2 * period) length =
        some (border.table 0 (2 * period) length) :=
      border.tableWord?_eq_table positive (by omega) (by omega)
        fun offset inside => Word.isSigned_iff.mpr (by omega)
    show (Word.product? 2 period).bind _ = _
    rw [entries, Option.bind_some, Option.bind_eq_bind, index, Option.bind_some]

/-- A run starts within two axes of the index and is no longer than two axes, whatever the size of
the window. -/
theorem run_bounds (size : Nat) (border : Border) (positive : 0 < length)
    (inside : position < length) :
    let parts := (make length size border).parts position
    parts.first ≤ 2 * length ∧ parts.stop ≤ parts.first + 2 * length := by
  cases periodic : periodOf length border with
  | none =>
    -- The run is cut off at both ends of the axis.
    obtain ⟨head, tail, first, count, split, -, within, -⟩ :=
      parts_of_aperiodic size periodic inside
    simp only [split]
    omega
  | some period =>
    -- The run starts in the first period and is shorter than one.
    obtain ⟨periodPos, -, most⟩ := periodOf_bounds positive periodic
    have first := Int.emod_lt_of_pos ((position : Int) - anchor size)
      (Int.natCast_pos.mpr periodPos)
    have count := Nat.mod_lt size periodPos
    simp only [parts_of_periodic size periodic]
    omega

/-- The run of a window lies in the index. -/
theorem run_within_index (size : Nat) (border : Border) (positive : 0 < length)
    (inside : position < length) :
    let parts := (make length size border).parts position
    parts.first ≤ parts.stop ∧ parts.stop ≤ (make length size border).index.length := by
  -- The run could be read, so it lies in the index.
  have taken := @run?_parts length size position border positive inside
  unfold run? at taken
  split at taken
  · assumption
  · contradiction

/-- The window at `position`, as a collection of the samples that its coordinates fold onto. -/
def window (axis : WindowAxis) (border : Border) (position : Nat) : Multiset Nat :=
  (Multiset.range axis.size).map fun i : Nat =>
    border.fold axis.length ((position : Int) - (axis.size / 2 : Nat) + i)

/-- The parts of a window as a collection of samples: copies of the first and of the last one, whole
periods, and the run. -/
def collected (axis : WindowAxis) (parts : WindowParts) (run : List Nat) : Multiset Nat :=
  Multiset.replicate parts.head 0 + Multiset.replicate parts.tail (axis.length - 1) +
    parts.periods • (axis.periodIndex : Multiset Nat) + (run : Multiset Nat)

/-- The parts of a window are collected to the folds of its coordinates. -/
theorem collected_parts (size : Nat) (border : Border) (positive : 0 < length)
    (inside : position < length) :
    let axis := make length size border
    axis.collected (axis.parts position) (axis.run (axis.parts position)) =
      axis.window border position := by
  -- The parts add up to the folded window whatever is added, and so they do as singletons.
  have parts := @sum_parts length size position border _ _
    (fun sample => ({sample} : Multiset Nat)) positive inside
  have singles : ∀ fold : Nat → Nat, ∑ i ∈ Finset.range size, ({fold i} : Multiset Nat) =
      (Multiset.range size).map fold := by
    intro fold
    rw [← Multiset.sum_map_singleton ((Multiset.range size).map fold), Multiset.map_map]
    rfl
  simp only [sum_map_singleton, Multiset.nsmul_singleton, singles] at parts
  simp only [collected]
  rw [add_comm, ← add_assoc, ← add_assoc]
  exact parts

/-- A window holds as many samples as its parts count. -/
theorem count_parts (size : Nat) (border : Border) (positive : 0 < length)
    (inside : position < length) :
    let axis := make length size border
    let parts := axis.parts position
    parts.head + parts.tail + parts.periods * axis.periodIndex.length + (axis.run parts).length =
      size := by
  -- The parts are counted as the window's samples are.
  have cards := congrArg Multiset.card (collected_parts size border positive inside)
  simpa [collected, window, make] using cards

/-- A whole period lists every sample of the axis. -/
theorem mem_periodIndex (size : Nat) (positive : 0 < length) {period sample : Nat}
    (periodic : periodOf length border = some period) (below : sample < length) :
    sample ∈ (make length size border).periodIndex := by
  -- The period begins with the axis.
  obtain ⟨-, long, -⟩ := periodOf_bounds positive periodic
  rw [periodIndex_of_periodic size periodic]
  exact List.mem_map.mpr
    ⟨sample, List.mem_range.mpr (by omega), border.fold_of_lt below⟩

/-- A window that holds a whole period holds every sample of the axis. -/
theorem mem_window (size : Nat) (border : Border) (positive : 0 < length)
    (inside : position < length) {sample : Nat} (below : sample < length)
    (whole : ((make length size border).parts position).periods ≠ 0) :
    sample ∈ (make length size border).window border position := by
  rw [← collected_parts size border positive inside, collected]
  cases periodic : periodOf length border with
  | none =>
    -- Where the edge samples extend, no period is ever taken.
    obtain ⟨head, tail, first, count, split, -⟩ := parts_of_aperiodic size periodic inside
    rw [split] at whole
    contradiction
  | some period =>
    have listed := mem_periodIndex size positive periodic below
    refine Multiset.mem_add.mpr (.inl (Multiset.mem_add.mpr (.inr ?_)))
    exact Multiset.mem_nsmul.mpr ⟨whole, Multiset.mem_coe.mpr listed⟩

/-- What the parts of the window at `position` and their run have to be. -/
structure Folded (axis : WindowAxis) (border : Border) (position : Nat) (parts : WindowParts)
    (run : List Nat) : Prop where
  /-- Every number among the parts is a word. -/
  words : parts.head < wordLimit ∧ parts.tail < wordLimit ∧ parts.periods < wordLimit ∧
    parts.first < wordLimit ∧ parts.stop < wordLimit
  /-- A whole period is as long as the border says. -/
  period : ∀ period, axis.period? = some period → axis.periodIndex.length = period
  /-- The parts count the window. -/
  count : parts.head + parts.tail + parts.periods * axis.periodIndex.length + run.length = axis.size
  /-- The run lies in the index. -/
  within : parts.first ≤ parts.stop ∧ parts.stop ≤ axis.index.length
  /-- The work does not grow with the window. -/
  short : run.length ≤ 2 * axis.length
  /-- The parts hold the samples of the window, each as often as the window does. -/
  samples : axis.collected parts run = axis.window border position
  /-- A whole period leaves no sample out. -/
  whole : parts.periods ≠ 0 → ∀ sample < axis.length, sample ∈ axis.window border position

/--
The parts of a window are the window.

On every axis that is made in words, under every border and for every size that is a word, the
window at a sample is counted by its parts, and what they collect is the fold of each of its
coordinates, as often as the window has it.
-/
theorem parts_fold_window (length size position : Nat) (border : Border) (positive : 1 ≤ length)
    (short : 4 * length < 2 ^ 63) (word : size < 2 ^ 64) (inside : position < length) :
    ∃ axis run, makeWord? length size border = some axis ∧
      axis.length = length ∧ axis.size = size ∧
      axis.run? (axis.parts position) = some run ∧
      axis.Folded border position (axis.parts position) run := by
  have counted := parts_le size border inside
  have bounds := run_bounds size border positive inside
  have limit : wordLimit = 2 ^ 64 := rfl
  refine ⟨make length size border, _, makeWord?_eq_make positive short size border, rfl, rfl,
    run?_parts positive inside, ?_⟩
  constructor
  case words => omega
  case period =>
    intro period periodic
    rw [periodIndex_of_periodic size periodic, List.length_map, List.length_range]
  case count => exact count_parts size border positive inside
  case within => exact run_within_index size border positive inside
  case short =>
    -- Taking the run from the index takes no more than it asks for.
    have taken := List.length_take_le
      (((make length size border).parts position).stop -
        ((make length size border).parts position).first)
      ((make length size border).index.drop ((make length size border).parts position).first)
    show _ ≤ 2 * length
    rw [run]
    omega
  case samples => exact collected_parts size border positive inside
  case whole => exact fun whole sample below => mem_window size border positive inside below whole

/-- A window of nine samples on three is two periods and a single sample. -/
theorem parts_fold_window_nineOnThree :
    (1 ≤ 3 ∧ 4 * 3 < 2 ^ 63 ∧ 9 < 2 ^ 64 ∧ 0 < 3) ∧
    (make 3 9 .reflect101).parts 0 = ⟨0, 0, 2, 0, 1⟩ ∧
    (make 3 9 .reflect101).periodIndex = [0, 1, 2, 1] ∧
    ∃ axis run, makeWord? 3 9 .reflect101 = some axis ∧ axis.length = 3 ∧ axis.size = 9 ∧
      axis.run? (axis.parts 0) = some run ∧ axis.Folded .reflect101 0 (axis.parts 0) run :=
  -- Nine samples around the first of three are two periods and one more sample.
  ⟨by decide, by decide, by decide,
    parts_fold_window 3 9 0 .reflect101 (by decide) (by decide) (by decide) (by decide)⟩

end Raster.WindowAxis
