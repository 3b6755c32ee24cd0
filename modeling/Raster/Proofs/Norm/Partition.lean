import Raster.Proofs.Norm.Selection

/-!
Groups of rows as a partition of the rows.  Main statements: `RowGroups.flatMap_rows_eq_range`, the
groups list every row once and in order, and `NormKind.Splits.reduced_eq_total`, when the results of
neighbouring parts join to the result of the whole, a reduction by groups is that of a single pass.
-/

namespace Raster

open Scalar (zero)

namespace RowGroups

variable {groups : RowGroups} {height limit : Nat}

/-- The groups are those of the image, and together they have room for all of its rows. -/
theorem le_count_mul (divided : of? height limit = some groups) :
    groups.height = height ∧ height ≤ groups.count * groups.rowsPerGroup := by
  simp only [of?] at divided
  split at divided
  · cases divided
  · rename_i some_count
    rw [Option.some.injEq] at divided
    subst divided
    refine ⟨rfl, ?_⟩
    -- The rows to a group are a quotient that is rounded up.
    show height ≤ min limit height * ((height + min limit height - 1) / min limit height)
    generalize min limit height = count at some_count ⊢
    have upper := Nat.lt_mul_div_succ (height + count - 1) (Nat.pos_of_ne_zero some_count)
    rw [Nat.mul_succ] at upper
    omega

/-- A group ends where the next one starts. -/
theorem stop_eq_start (groups : RowGroups) (group : Nat) :
    groups.stop group = groups.start (group + 1) := by
  -- Both are cut off at the height.
  rw [stop, start, start, Nat.succ_mul]
  omega

/-- The groups before a group list the rows before its first one. -/
theorem flatMap_rows_range (groups : RowGroups) (count : Nat) :
    (List.range count).flatMap groups.rows = List.range (groups.start count) := by
  -- Each group starts where the one before it ends.
  have rising : ∀ group, groups.start group ≤ groups.start (group + 1) := fun group => by
    rw [start, start, Nat.succ_mul]
    omega
  rw [← flatMap_stretches (by simp [start]) rising]
  simp only [← stop_eq_start]
  rfl

/-- The groups list every row of the image once and in order. -/
theorem flatMap_rows_eq_range (divided : of? height limit = some groups) :
    (List.range groups.count).flatMap groups.rows = List.range height := by
  -- The last group ends at the height, so the rows of all groups are all rows.
  obtain ⟨rfl, room⟩ := le_count_mul divided
  rw [flatMap_rows_range, start, Nat.min_eq_right room]

end RowGroups

namespace NormKind

variable {α S D : Type} [Scalar S] [Wide D S] [Element α S D] {kind : NormKind}

/-- Wherever a beginning of the samples is cut in two, the results of both parts join to that of the
whole. -/
def Splits (kind : NormKind) (samples : List α) : Prop :=
  ∀ front rest, front ++ rest <+: samples →
    kind.total (front ++ rest) = kind.combine (kind.total front) (kind.total rest)

section

variable {groups : RowGroups} {row : Nat → List α}

omit [Scalar S] [Wide D S] [Element α S D] in
/-- The groups list the samples of all rows, row after row. -/
theorem flatMap_groupOf {height limit : Nat} (divided : RowGroups.of? height limit = some groups) :
    (List.range groups.count).flatMap (groupOf groups row) = (List.range height).flatMap row := by
  -- The rows of the groups, group after group, are all rows in order.
  rw [← RowGroups.flatMap_rows_eq_range divided, List.flatMap_assoc]
  rfl

omit [Scalar S] [Wide D S] [Element α S D] in
/-- The samples of some first groups begin the samples of all groups. -/
theorem first_groups_begin (row : Nat → List α) {count : Nat} (within : count ≤ groups.count) :
    (List.range count).flatMap (groupOf groups row) <+:
      (List.range groups.count).flatMap (groupOf groups row) := by
  obtain ⟨later, sum⟩ := Nat.exists_eq_add_of_le within
  -- The groups that follow are appended to the first ones.
  rw [sum, List.range_add, List.flatMap_append]
  exact List.prefix_append _ _

/-- The joined results of some first groups are the result of a single pass over their samples. -/
theorem Splits.foldl_partials
    (splits : kind.Splits ((List.range groups.count).flatMap (groupOf groups row))) {count : Nat}
    (within : count ≤ groups.count) :
    ((kind.partials groups row).take count).foldl kind.combine zero =
      kind.total ((List.range count).flatMap (groupOf groups row)) := by
  rw [partials, ← List.map_take, List.take_range, Nat.min_eq_left within]
  -- By induction on the number of groups: the next one is cut off the end.
  induction count with
  | zero => rfl
  | succ count ih =>
    have cut := first_groups_begin row within
    rw [List.range_succ, List.flatMap_append, List.flatMap_singleton] at cut ⊢
    rw [List.map_append, List.foldl_append, ih (by omega), splits _ _ cut]
    rfl

/-- When results of neighbouring parts join, a reduction by groups is that of a single pass. -/
theorem Splits.reduced_eq_total {height limit : Nat}
    (divided : RowGroups.of? height limit = some groups)
    (splits : kind.Splits ((List.range height).flatMap row)) :
    kind.reduced groups row = kind.total ((List.range height).flatMap row) := by
  rw [← flatMap_groupOf divided] at splits ⊢
  -- Taking all partial results takes the list as it is.
  have all := splits.foldl_partials (Nat.le_refl _)
  rwa [List.take_of_length_le (by simp [partials])] at all

end

/-- What a value joins to a partial result. -/
def term (kind : NormKind) (value : D) : D :=
  match kind with
  | .inf | .l1 => Wide.abs value
  | .l2 => value * value

/-- A value is taken into a partial result by joining its term. -/
theorem accumulate_eq (kind : NormKind) (a value : D) :
    kind.accumulate a value = kind.combine a (kind.term value) := by
  cases kind <;> rfl

/-- Partial results that are reached from zero can be regrouped: zero joins without effect, and a
value taken in before joining may as well be taken in by the other side. -/
structure Regroups (kind : NormKind) (reached : D → Prop) : Prop where
  -- What a group can have come to: it starts from zero and takes in values.
  base : reached zero
  step : ∀ a value, reached a → reached (kind.accumulate a value)
  idle : ∀ a, reached a → kind.combine a zero = a
  assoc : ∀ a value b, reached a → kind.combine (kind.accumulate a value) b =
    kind.combine a (kind.combine (kind.accumulate zero value) b)

namespace Regroups

variable {reached : D → Prop}

/-- Taking in values reaches partial results only. -/
theorem reached_foldl (regroups : kind.Regroups reached) {a : D} (start : reached a)
    (values : List D) : reached (values.foldl kind.accumulate a) := by
  -- Each value is one more step from a result that was reached.
  induction values generalizing a with
  | nil => exact start
  | cons value rest ih => exact ih (regroups.step a value start)

/-- Values taken into a partial result join it as their own partial result. -/
theorem foldl_accumulate (regroups : kind.Regroups reached) {a : D} (start : reached a)
    (values : List D) :
    values.foldl kind.accumulate a = kind.combine a (values.foldl kind.accumulate zero) := by
  -- By induction on the values, over all partial results: the first one changes sides.
  induction values generalizing a with
  | nil => exact (regroups.idle a start).symm
  | cons value rest ih =>
    rw [List.foldl_cons, List.foldl_cons, ih (regroups.step a value start),
      ih (regroups.step zero value regroups.base), regroups.assoc a value _ start]

/-- Samples split wherever their partial results can be regrouped. -/
theorem splits (regroups : kind.Regroups reached) (samples : List α) : kind.Splits samples := by
  -- The later samples are taken into the result of the earlier ones.
  intro front rest _
  rw [total, List.map_append, List.foldl_append,
    regroups.foldl_accumulate (regroups.reached_foldl regroups.base _)]
  rfl

end Regroups

end NormKind

end Raster
