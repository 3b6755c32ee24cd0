/-! Reading many positions at once: one fault spoils the whole reading. -/

namespace Raster

/-- The values read at `positions`, in order, or `none` when one of the reads faults. -/
def gather? {ι α : Type} (read : ι → Option α) (positions : List ι) : Option (List α) :=
  positions.mapM read

/-- The difference of two counts, a fault when it would fall below zero. -/
def less? (whole part : Nat) : Option Nat :=
  -- Counts are unsigned, so a smaller minuend has no difference.
  if part ≤ whole then some (whole - part) else none

variable {ι α : Type}

@[simp] theorem gather?_nil (read : ι → Option α) : gather? read [] = some [] := by
  simp [gather?]

@[simp] theorem gather?_cons (read : ι → Option α) (position : ι) (rest : List ι) :
    gather? read (position :: rest) =
      (read position).bind fun value => (gather? read rest).map (value :: ·) := by
  rw [gather?, List.mapM_cons]
  -- The first read that fails decides.
  cases read position with
  | none => rfl
  | some value => cases tail : rest.mapM read <;> simp [gather?, tail]

/-- Gathering succeeds exactly when every position reads, with those readings as its values. -/
theorem gather?_eq_some_iff {read : ι → Option α} {positions : List ι} {values : List α} :
    gather? read positions = some values ↔ positions.map read = values.map some := by
  -- One read is split off from each side at every step.
  induction positions generalizing values with
  | nil => cases values <;> simp
  | cons position rest ih =>
    cases found : read position with
    | none => cases values <;> simp [found]
    | some value =>
      cases values with
      | nil => simp [found]
      | cons head tail =>
        simp only [gather?_cons, found, Option.bind_some, Option.map_eq_some_iff, ih,
          List.map_cons, List.cons.injEq, Option.some.injEq]
        grind

/-- Nothing is lost or added by a successful gathering. -/
theorem length_of_gather? {read : ι → Option α} {positions : List ι} {values : List α}
    (gathered : gather? read positions = some values) : values.length = positions.length := by
  -- What was gathered are the results of the reads, one for each position.
  have same := congrArg List.length (gather?_eq_some_iff.mp gathered)
  simpa using same.symm

/-- Gathering faults exactly when one of the reads does. -/
theorem gather?_eq_none_iff {read : ι → Option α} {positions : List ι} :
    gather? read positions = none ↔ ∃ position ∈ positions, read position = none := by
  induction positions with
  | nil => simp
  | cons position rest ih =>
    -- The failure is at this position or among the rest.
    cases found : read position <;> simp [found, ih]

/-- Gathering looks only at the listed positions. -/
theorem gather?_congr {read other : ι → Option α} {positions : List ι}
    (agree : ∀ position ∈ positions, read position = other position) :
    gather? read positions = gather? other positions := by
  induction positions with
  | nil => simp
  | cons position rest ih =>
    -- The first reads agree, and the rest do by induction.
    rw [gather?_cons, gather?_cons, agree position (by simp),
      ih fun later member => agree later (by simp [member])]

/-- Positions that all read can be gathered. -/
theorem gather?_of_forall {read : ι → Option α} {value : ι → α} {positions : List ι}
    (reads : ∀ position ∈ positions, read position = some (value position)) :
    gather? read positions = some (positions.map value) := by
  -- Each read is the value of its own position.
  rw [gather?_eq_some_iff, List.map_map]
  exact List.map_congr_left reads

/-- The positions before `stop` are those before `start` and those from there on. -/
theorem range_append_range' {start stop : Nat} (order : start ≤ stop) :
    List.range start ++ List.range' start (stop - start) = List.range stop := by
  -- A stretch from zero followed by the one that starts where it stops.
  have joined := @List.range'_append_1 0 start (stop - start)
  rw [Nat.zero_add, Nat.add_sub_of_le order] at joined
  rw [List.range_eq_range', List.range_eq_range', joined]

/-- A list that stands at one index of a range and nowhere else stands in the whole once. -/
theorem flatMap_range_ite (list : List α) (index size : Nat) :
    (List.range size).flatMap (fun i => if i = index then list else []) =
      if index < size then list else [] := by
  induction size with
  | zero => rfl
  | succ size ih =>
    rw [List.range_succ, List.flatMap_append, ih, List.flatMap_singleton]
    -- The list is added when its own index is reached.
    rcases Nat.lt_trichotomy index size with below | same | above
    · rw [if_pos below, if_neg (by omega), if_pos (by omega), List.append_nil]
    · rw [if_neg (by omega), if_pos same.symm, if_pos (by omega), List.nil_append]
    · rw [if_neg (by omega), if_neg (by omega), if_neg (by omega), List.append_nil]

/-- Stretches of positions that start at zero, each where the one before it stops, are together the
positions before the last stop. -/
theorem flatMap_stretches {bound : Nat → Nat} (first : bound 0 = 0)
    (rising : ∀ n, bound n ≤ bound (n + 1)) (count : Nat) :
    (List.range count).flatMap (fun n => List.range' (bound n) (bound (n + 1) - bound n)) =
      List.range (bound count) := by
  -- By induction on the number of stretches: the next one is put after those before it.
  induction count with
  | zero => rw [first]; rfl
  | succ count ih =>
    rw [List.range_succ, List.flatMap_append, ih, List.flatMap_singleton,
      range_append_range' (rising count)]

end Raster
