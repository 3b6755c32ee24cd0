import Raster.Proofs.Resize.Transpose

/-!
Overlaps of source samples with the footprints of destinations, in exact arithmetic.  Main
statement: `table?_lists_overlaps`, a decimation table lists, destination by destination, the source
samples whose overlap with its footprint counts, each with its share of the footprint.
-/

namespace Raster.Area

open Share (scale start firstWhole lastPart start_succ start_nonneg one_le_scale)

variable {sourceSize targetSize d s : Nat}

/-- The length of source sample `s` that lies in the footprint of destination `d`. -/
def overlap (sourceSize targetSize d s : Nat) : ℚ :=
  max 0 (min ((s : ℚ) + 1) (start sourceSize targetSize (d + 1)) -
    max (s : ℚ) (start sourceSize targetSize d))

/-- A sample that ends before the footprint starts is not in it. -/
theorem overlap_of_before (before : (s : ℚ) + 1 ≤ start sourceSize targetSize d) :
    overlap sourceSize targetSize d s = 0 := by
  -- The end of the sample is before the start of the footprint, so no length is common.
  refine max_eq_left (sub_nonpos.mpr ?_)
  exact (min_le_left _ _).trans (before.trans (le_max_right _ _))

/-- A sample that starts after the footprint ends is not in it. -/
theorem overlap_of_after (after : start sourceSize targetSize (d + 1) ≤ s) :
    overlap sourceSize targetSize d s = 0 := by
  -- The start of the sample is behind the end of the footprint.
  refine max_eq_left (sub_nonpos.mpr ?_)
  exact (min_le_right _ _).trans (after.trans (le_max_left _ _))

/-- A sample in which the footprint starts overlaps with it up to its own end. -/
theorem overlap_of_start (starts : s ≤ start sourceSize targetSize d)
    (meets : start sourceSize targetSize d ≤ (s : ℚ) + 1)
    (further : (s : ℚ) + 1 ≤ start sourceSize targetSize (d + 1)) :
    overlap sourceSize targetSize d s = s + 1 - start sourceSize targetSize d := by
  rw [overlap, min_eq_left further, max_eq_right starts, max_eq_right (sub_nonneg.mpr meets)]

/-- A sample in which the footprint ends overlaps with it from its own start. -/
theorem overlap_of_stop (earlier : start sourceSize targetSize d ≤ s)
    (meets : s ≤ start sourceSize targetSize (d + 1))
    (stops : start sourceSize targetSize (d + 1) ≤ (s : ℚ) + 1) :
    overlap sourceSize targetSize d s = start sourceSize targetSize (d + 1) - s := by
  rw [overlap, min_eq_right stops, max_eq_left earlier, max_eq_right (sub_nonneg.mpr meets)]

/-- A sample that lies in the footprint overlaps with it whole. -/
theorem overlap_of_inside (earlier : start sourceSize targetSize d ≤ s)
    (further : (s : ℚ) + 1 ≤ start sourceSize targetSize (d + 1)) :
    overlap sourceSize targetSize d s = 1 := by
  -- The sample is the shorter of the two.
  rw [overlap, min_eq_left further, max_eq_left earlier, add_sub_cancel_left]
  exact max_eq_right zero_le_one

/-- A sample in which the whole footprint lies overlaps with all of it. -/
theorem overlap_of_around (starts : s ≤ start sourceSize targetSize d)
    (stops : start sourceSize targetSize (d + 1) ≤ (s : ℚ) + 1) :
    overlap sourceSize targetSize d s = scale sourceSize targetSize := by
  -- The footprint is the shorter of the two.
  have least : 0 ≤ scale sourceSize targetSize := by
    unfold scale
    positivity
  rw [overlap, min_eq_right stops, max_eq_right starts, start_succ, add_sub_cancel_left,
    max_eq_right least]

namespace Share

/-- The source samples whose overlap with the footprint of a destination counts, in order. -/
def counted (sourceSize targetSize d : Nat) : List Nat :=
  (List.range sourceSize).filter fun s => 1 / 1000 < overlap sourceSize targetSize d s

/-- Samples that do not overlap with a footprint do not count. -/
theorem filter_eq_nil {samples : List Nat}
    (apart : ∀ s ∈ samples, overlap sourceSize targetSize d s = 0) :
    samples.filter (fun s => 1 / 1000 < overlap sourceSize targetSize d s) = [] := by
  -- Nothing is longer than a thousandth there.
  refine List.filter_eq_nil_iff.mpr fun s member => ?_
  rw [apart s member]
  norm_num

/-- Whole samples of a footprint all count. -/
theorem filter_eq_self {samples : List Nat}
    (whole : ∀ s ∈ samples, overlap sourceSize targetSize d s = 1) :
    samples.filter (fun s => 1 / 1000 < overlap sourceSize targetSize d s) = samples := by
  -- A whole sample is longer than a thousandth.
  refine List.filter_eq_self.mpr fun s member => ?_
  rw [whole s member]
  norm_num

/-- A sample on its own counts when the length of it that lies in the footprint does. -/
theorem filter_singleton {length : ℚ} (part : overlap sourceSize targetSize d s = length) :
    [s].filter (fun s => 1 / 1000 < overlap sourceSize targetSize d s) =
      if 1 / 1000 < length then [s] else [] := by
  -- Whether the sample counts is one comparison.
  rw [List.filter_singleton, part]
  simp only [Bool.cond_decide]

/-- An axis is its samples before a stretch of it, those of the stretch and those after it. -/
theorem range_cut {first stop size : Nat} (order : first ≤ stop) (inside : stop ≤ size) :
    List.range size =
      List.range first ++ (List.range' first (stop - first) ++ List.range' stop (size - stop)) := by
  rw [← List.append_assoc, range_append_range' order, range_append_range' inside]

/-- A part that is left out is at most a thousandth of a sample. -/
theorem slight_le (length : ℚ) : slight length ≤ 1 / 1000 := by
  -- What is counted leaves nothing out.
  unfold slight
  split_ifs <;> linarith

/-- A part of which a thousandth of a sample is left out is that long. -/
theorem eq_of_slight {length : ℚ} (most : slight length = 1 / 1000) : length = 1 / 1000 := by
  unfold slight at most
  -- A longer part is counted, so only the bound itself is left.
  split_ifs at most
  · exact most
  · norm_num at most

/-- A cell leaves out less than two thousandths of a sample of its footprint. -/
theorem uncounted_lt (inside : d < targetSize) :
    uncounted sourceSize targetSize d < 1 / 500 := by
  -- At the bound the start and the stop would be a thousandth before and after whole numbers.
  refine lt_of_le_of_ne (uncounted_bounds sourceSize targetSize d).2 fun most => ?_
  have size : (targetSize : ℚ) ≠ 0 := by exact_mod_cast (Nat.zero_lt_of_lt inside).ne'
  -- Both parts that are left out would be as long as a slight part can be.
  have before := slight_le (firstWhole sourceSize targetSize d - start sourceSize targetSize d)
  have after := slight_le (Int.fract (start sourceSize targetSize (d + 1)))
  rw [uncounted] at most
  have head := eq_of_slight (by linarith :
    slight (firstWhole sourceSize targetSize d - start sourceSize targetSize d) = 1 / 1000)
  have tail := eq_of_slight (by linarith :
    slight (Int.fract (start sourceSize targetSize (d + 1))) = 1 / 1000)
  rw [Int.fract] at tail
  generalize firstWhole sourceSize targetSize d = first at head
  generalize ⌊start sourceSize targetSize (d + 1)⌋ = last at tail
  simp only [start, scale] at head tail
  field_simp at head tail
  push_cast at tail
  -- Weighting both equations by the neighbouring destination leaves an even number that is one.
  have twice : (2 : ℚ) * (500 * (d * first + first - d * last) - d) = 1 := by
    refine mul_right_cancel₀ size ?_
    linear_combination (d + 1 : ℚ) * head + d * tail
  have parity : (2 : ℤ) * (500 * (d * first + first - d * last) - d) = 1 := by
    exact_mod_cast twice
  omega

section Cut

variable (shrinks : targetSize ≤ sourceSize) (inside : d < targetSize)

include shrinks inside

/-- The sample before the first whole one overlaps with a footprint that starts in it. -/
theorem overlap_head (positive : 0 < firstWhole sourceSize targetSize d) :
    overlap sourceSize targetSize d (firstWhole sourceSize targetSize d - 1) =
      firstWhole sourceSize targetSize d - start sourceSize targetSize d := by
  -- The first whole sample starts less than a sample after the footprint does.
  have order := (Nat.cast_le (α := ℚ)).mpr (firstWhole_le_lastPart shrinks inside)
  have meets := Nat.le_ceil (start sourceSize targetSize d)
  have above := Nat.ceil_lt_add_one (start_nonneg sourceSize targetSize d)
  have before : ((firstWhole sourceSize targetSize d - 1 : Nat) : ℚ) + 1 =
      firstWhole sourceSize targetSize d := by
    rw [Nat.cast_sub positive, Nat.cast_one, sub_add_cancel]
  rw [← firstWhole] at meets above
  rw [overlap_of_start (by linarith) (by linarith)
    (by linarith [(lastPart_bounds shrinks inside).1]), before]

/-- The samples of a footprint from its first whole one up to its last one are whole. -/
theorem overlap_body (first : firstWhole sourceSize targetSize d ≤ s)
    (last : s < lastPart sourceSize targetSize d) : overlap sourceSize targetSize d s = 1 := by
  -- The sample starts at or behind the footprint and ends before it.
  have stop := (lastPart_bounds shrinks inside).1
  have next : (s : ℚ) + 1 ≤ lastPart sourceSize targetSize d := by exact_mod_cast last
  exact overlap_of_inside ((Nat.le_ceil _).trans (Nat.cast_le.mpr first)) (next.trans stop)

/-- The last sample of a footprint overlaps with it up to its end. -/
theorem overlap_tail : overlap sourceSize targetSize d (lastPart sourceSize targetSize d) =
    start sourceSize targetSize (d + 1) - lastPart sourceSize targetSize d := by
  -- The last part starts inside the footprint and ends with it.
  obtain ⟨meets, stops⟩ := lastPart_bounds shrinks inside
  exact overlap_of_stop ((Nat.le_ceil _).trans
    (Nat.cast_le.mpr (firstWhole_le_lastPart shrinks inside))) meets stops

/-- Of the samples before the first whole one at most the one just before it counts. -/
theorem filter_before :
    (List.range (firstWhole sourceSize targetSize d)).filter
        (fun s => 1 / 1000 < overlap sourceSize targetSize d s) =
      if 1 / 1000 < firstWhole sourceSize targetSize d - start sourceSize targetSize d then
        [firstWhole sourceSize targetSize d - 1] else [] := by
  have least := start_nonneg sourceSize targetSize d
  have head := overlap_head shrinks inside
  cases first : firstWhole sourceSize targetSize d with
  | zero =>
    rw [Nat.cast_zero, if_neg (by linarith)]
    rfl
  | succ s =>
    -- The footprint starts in the sample before, so all earlier ones end before it does.
    have starts : (s : ℚ) < start sourceSize targetSize d :=
      Nat.lt_ceil.mp (by rw [← firstWhole, first]; exact Nat.lt_succ_self s)
    have earlier : ∀ e ∈ List.range s, overlap sourceSize targetSize d e = 0 := by
      intro e member
      refine overlap_of_before (le_trans ?_ starts.le)
      exact_mod_cast List.mem_range.mp member
    rw [first, Nat.add_sub_cancel] at head
    rw [List.range_succ, List.filter_append, filter_eq_nil earlier, List.nil_append,
      filter_singleton (head (Nat.succ_pos s)), Nat.add_sub_cancel]

/-- The samples that count are the one that the footprint starts in, if what it has of that counts,
the whole ones, and the one that it ends in, if what it has of that counts. -/
theorem counted_eq : counted sourceSize targetSize d =
    (if 1 / 1000 < firstWhole sourceSize targetSize d - start sourceSize targetSize d then
      [firstWhole sourceSize targetSize d - 1] else []) ++
    (List.range' (firstWhole sourceSize targetSize d)
      (lastPart sourceSize targetSize d - firstWhole sourceSize targetSize d) ++
    if 1 / 1000 < start sourceSize targetSize (d + 1) - lastPart sourceSize targetSize d then
      [lastPart sourceSize targetSize d] else []) := by
  have order := firstWhole_le_lastPart shrinks inside
  have last : lastPart sourceSize targetSize d < sourceSize :=
    (min_le_right _ _).trans_lt (by omega)
  -- The axis is cut at the first whole sample and before and after the last one.
  have cut : List.range' (lastPart sourceSize targetSize d)
      (sourceSize - lastPart sourceSize targetSize d) = [lastPart sourceSize targetSize d] ++
        List.range' (lastPart sourceSize targetSize d + 1)
          (sourceSize - (lastPart sourceSize targetSize d + 1)) := by
    rw [← Nat.succ_pred_eq_of_pos (Nat.sub_pos_of_lt last), List.range'_succ, Nat.sub_add_eq]
    rfl
  have whole : ∀ s ∈ List.range' (firstWhole sourceSize targetSize d)
      (lastPart sourceSize targetSize d - firstWhole sourceSize targetSize d),
        overlap sourceSize targetSize d s = 1 := by
    intro s member
    rw [List.mem_range'_1] at member
    exact overlap_body shrinks inside member.1 (by omega)
  have after : ∀ s ∈ List.range' (lastPart sourceSize targetSize d + 1)
      (sourceSize - (lastPart sourceSize targetSize d + 1)),
        overlap sourceSize targetSize d s = 0 := by
    intro s member
    refine overlap_of_after ((lastPart_bounds shrinks inside).2.trans ?_)
    exact_mod_cast (List.mem_range'_1.mp member).1
  rw [counted, range_cut order last.le, cut, List.filter_append, List.filter_append,
    List.filter_append, filter_before shrinks inside, filter_eq_self whole,
    filter_singleton (overlap_tail shrinks inside), filter_eq_nil after, List.append_nil]

/-- In exact arithmetic the cell of a destination lists the samples that count, each with its share
of the footprint. -/
theorem cell_eq_counted :
    cell ℚ sourceSize targetSize d = (counted sourceSize targetSize d).map fun s =>
      ⟨d, s, overlap sourceSize targetSize d s / scale sourceSize targetSize⟩ := by
  have least := start_nonneg sourceSize targetSize d
  rw [cell_rat shrinks inside, counted_eq shrinks inside, List.map_append, List.map_append,
    List.append_assoc]
  -- The head may be missing, the whole samples have overlap one, and the tail may be missing.
  congr 1
  · split_ifs with early
    · have positive : 0 < firstWhole sourceSize targetSize d :=
        Nat.pos_of_ne_zero fun empty => by
          rw [empty, Nat.cast_zero] at early
          linarith
      rw [List.map_singleton, overlap_head shrinks inside positive]
    · rfl
  congr 1
  · refine List.map_congr_left fun s member => ?_
    rw [List.mem_range'_1] at member
    rw [overlap_body shrinks inside member.1 (by omega)]
  · split_ifs
    · rw [List.map_singleton, overlap_tail shrinks inside]
    · rfl

/-- The shares of a cell add up to one or less, by less than two thousandths of a sample. -/
theorem sum_cell_bounds :
    1 - 1 / 500 / scale sourceSize targetSize < ((cell ℚ sourceSize targetSize d).map weight).sum ∧
      ((cell ℚ sourceSize targetSize d).map weight).sum ≤ 1 := by
  -- The shares add up to one, less what is left out as a share of the footprint.
  have long := one_le_scale (Nat.zero_lt_of_lt inside) shrinks
  have positive : 0 < scale sourceSize targetSize := by linarith
  have least := (uncounted_bounds sourceSize targetSize d).1
  rw [sum_cell shrinks inside]
  constructor
  · gcongr
    exact uncounted_lt inside
  · exact sub_le_self 1 (div_nonneg least positive.le)

/-- Every destination has a sample that counts. -/
theorem cell_ne_nil : cell ℚ sourceSize targetSize d ≠ [] := by
  -- Shares that add up to nearly one are not none.
  have long := one_le_scale (Nat.zero_lt_of_lt inside) shrinks
  have short : 1 / 500 / scale sourceSize targetSize ≤ 1 / 500 := div_le_self (by norm_num) long
  have sum := (sum_cell_bounds shrinks inside).1
  intro empty
  rw [empty, List.map_nil, List.sum_nil] at sum
  linarith

end Cut

/-- A decimation table lists for every destination, in ascending order, the source samples whose
overlap with its footprint is more than a thousandth, each with its share of the footprint. -/
theorem table?_lists_overlaps (positive : 0 < targetSize) (shrinks : targetSize ≤ sourceSize) :
    ∃ table, table? ℚ sourceSize targetSize = some table ∧
      (∀ share ∈ table, share.destination < targetSize) ∧ Ascending table ∧
      ∀ d, d < targetSize → ∃ cell, table.filter (fun share => share.destination = d) = cell ∧
        cell = (counted sourceSize targetSize d).map (fun s =>
          ⟨d, s, overlap sourceSize targetSize d s / scale sourceSize targetSize⟩) ∧
        cell ≠ [] ∧ 1 - 2 / 1000 / scale sourceSize targetSize < (cell.map weight).sum ∧
        (cell.map weight).sum ≤ 1 := by
  have samples : 0 < sourceSize := positive.trans_le shrinks
  refine ⟨table ℚ sourceSize targetSize, table?_eq_table startsInside_rat samples,
    fun share member => (mem_table samples member).1, table_ascending samples,
    fun d inside => ⟨_, filter_table samples inside, cell_eq_counted shrinks inside,
      cell_ne_nil shrinks inside, ?_⟩⟩
  -- Both bounds are those of the sum over the cell.
  obtain ⟨least, most⟩ := sum_cell_bounds shrinks inside
  norm_num at least ⊢
  exact ⟨least, most⟩

/-- Where three samples become two, the second one is shared by both destinations. -/
theorem table?_three_two : 0 < 2 ∧ 2 ≤ 3 ∧ ∃ table, table? ℚ 3 2 = some table ∧
    table.filter (fun share => share.destination = 0) = [⟨0, 0, 2 / 3⟩, ⟨0, 1, 1 / 3⟩] ∧
    table.filter (fun share => share.destination = 1) = [⟨1, 1, 1 / 3⟩, ⟨1, 2, 2 / 3⟩] := by
  refine ⟨by decide, by decide, ?_⟩
  -- A footprint of one and a half samples takes one and half of another.
  obtain ⟨table, computed, -, -, cells⟩ :=
    @table?_lists_overlaps 3 2 (by decide) (by decide)
  obtain ⟨_, first, firstLists, -⟩ := cells 0 (by decide)
  obtain ⟨_, second, secondLists, -⟩ := cells 1 (by decide)
  refine ⟨table, computed, first.trans (firstLists.trans ?_), second.trans (secondLists.trans ?_)⟩
  · decide +kernel
  · decide +kernel

end Share

end Raster.Area
