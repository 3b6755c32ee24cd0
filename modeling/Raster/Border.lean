import Raster.Refusal

/-!
Border policies: folding a coordinate outside an axis back onto one of its samples.  Main statement:
`fold_lt`, every coordinate lands on the axis.
-/

namespace Raster

/-- A policy for coordinates that lie outside an axis. -/
inductive Border where
  /-- The edge samples extend without end. -/
  | replicate
  /-- The axis is mirrored about its edges, so an edge sample is repeated. -/
  | reflect
  /-- The axis is mirrored about its edge samples, which are not repeated. -/
  | reflect101
  /-- The policy used when none is named; it folds as `reflect101` does. -/
  | standard
  deriving DecidableEq, Repr

namespace Border

/-- The policy selected by a numeric code. -/
def ofCode (code : Int) : Except Refusal Border :=
  if code = 1 then .ok .replicate
  else if code = 2 then .ok .reflect
  else if code = 4 then .ok .reflect101
  -- The standard border has a code of its own.
  else if code = -1 then .ok .standard
  else .error (.unknownBorder code)

/-- The policy selected by an optional code. -/
def ofCode? (code : Option Int) : Except Refusal Border :=
  match code with
  -- No code is no fault.
  | none => .ok .standard
  | some code => ofCode code

/-- Where a coordinate is folded to on an axis of `length` samples, by whole numbers. -/
def place (border : Border) (length coordinate : Int) : Int :=
  if 0 ≤ coordinate ∧ coordinate < length then coordinate
  else
    match border with
    | .replicate => max 0 (min coordinate (length - 1))
    | .reflect =>
      -- One period holds the axis and its mirror image.
      let offset := coordinate % (2 * length)
      if offset < length then offset else 2 * length - 1 - offset
    | .reflect101 | .standard =>
      -- On a single sample the period would be empty.
      if length = 1 then 0
      else
        let offset := coordinate % (2 * length - 2)
        if offset < length then offset else 2 * length - 2 - offset

/-- The sample of an axis of `length` samples that stands for a coordinate on either side of it. -/
def fold (border : Border) (length : Nat) (coordinate : Int) : Nat :=
  (border.place length coordinate).toNat

/-- The samples that stand for `count` consecutive coordinates from `start`. -/
def table (border : Border) (start : Int) (count length : Nat) : List Nat :=
  (List.range count).map fun (offset : Nat) => border.fold length (start + offset)

/-- A coordinate on the axis stays where it is. -/
theorem place_of_inside (border : Border) {length coordinate : Int} (low : 0 ≤ coordinate)
    (high : coordinate < length) : border.place length coordinate = coordinate := by
  unfold place
  -- Coordinates inside the image are kept by every border.
  exact if_pos ⟨low, high⟩

/-- Every coordinate is folded onto an axis that has samples. -/
theorem place_bounds (border : Border) {length : Int} (positive : 0 < length) (coordinate : Int) :
    0 ≤ border.place length coordinate ∧ border.place length coordinate < length := by
  unfold place
  split
  · assumption
  · -- An offset in the period is on the axis or, once mirrored, on it.
    have mirrored := Int.emod_nonneg coordinate (show 2 * length ≠ 0 by omega)
    have below := Int.emod_lt_of_pos coordinate (show 0 < 2 * length by omega)
    cases border with
    | replicate => simp only; omega
    | reflect =>
      simp only
      split <;> omega
    | reflect101 | standard =>
      simp only
      split
      · omega
      · have low := Int.emod_nonneg coordinate (show 2 * length - 2 ≠ 0 by omega)
        have high := Int.emod_lt_of_pos coordinate (show 0 < 2 * length - 2 by omega)
        split <;> omega

/-- A coordinate on the axis stands for itself. -/
theorem fold_of_lt (border : Border) {length i : Nat} (inside : i < length) :
    border.fold length i = i := by
  -- An index is a coordinate inside.
  rw [fold, border.place_of_inside (by omega) (by omega)]
  simp

/-- Every coordinate is folded onto a sample of the axis. -/
theorem fold_lt (border : Border) {length : Nat} (positive : 0 < length) (coordinate : Int) :
    border.fold length coordinate < length := by
  -- Wherever a coordinate is placed, it is inside.
  have bounds := border.place_bounds (show (0 : Int) < length by omega) coordinate
  unfold fold
  omega

end Border

end Raster
