import Raster.Box.Axis

/-!
Folding as a function on all whole numbers.  Main statements: `fold_add_period`, a border with a
period repeats the axis, and `fold_of_periodOf_eq_none`, without one the edge samples extend.
-/

namespace Raster

open WindowAxis (periodOf)

/-- A period is long enough to hold the axis and has no more than the axis and its mirror image. -/
theorem WindowAxis.periodOf_bounds {length period : Nat} {border : Border}
    (positive : 0 < length) (periodic : periodOf length border = some period) :
    0 < period ∧ length ≤ period ∧ period ≤ 2 * length := by
  -- A period is absent on a single sample, where the mirrored axis would be empty.
  unfold periodOf at periodic
  split at periodic
  · contradiction
  · cases border with
    | replicate => contradiction
    | reflect | reflect101 | standard =>
      simp only [Option.some.injEq] at periodic
      omega

namespace Border

/-- A border with a period places a coordinate by its remainder alone. -/
theorem place_emod {length period : Nat} {border : Border} (positive : 0 < length)
    (periodic : periodOf length border = some period) (coordinate : Int) :
    border.place length (coordinate % period) = border.place length coordinate := by
  -- A remainder is its own remainder, and a coordinate on the axis is already one.
  obtain ⟨periodPos, long, _⟩ := WindowAxis.periodOf_bounds positive periodic
  have again : coordinate % period % period = coordinate % period :=
    Int.emod_emod_of_dvd _ ⟨1, by simp⟩
  have low := Int.emod_nonneg coordinate (show (period : Int) ≠ 0 by omega)
  have inside : 0 ≤ coordinate → coordinate < length → coordinate % period = coordinate :=
    fun low high => Int.emod_eq_of_lt low (by omega)
  unfold periodOf at periodic
  split at periodic
  · contradiction
  · cases border with
    | replicate => contradiction
    | reflect =>
      -- The mirrored axis repeats its ends, so its period is twice the length.
      simp only [Option.some.injEq] at periodic
      have cast : (2 * length : Int) = period := by omega
      simp only [place, cast, again]
      grind
    | reflect101 | standard =>
      -- The ends are not repeated, so the period is shorter by both of them.
      simp only [Option.some.injEq] at periodic
      have cast : (2 * length - 2 : Int) = period := by omega
      simp only [place, cast, again]
      grind

/-- A border with a period folds coordinates one period apart onto the same sample. -/
theorem fold_emod {length period : Nat} {border : Border} (positive : 0 < length)
    (periodic : periodOf length border = some period) (coordinate : Int) :
    border.fold length (coordinate % period) = border.fold length coordinate := by
  rw [fold, fold, place_emod positive periodic]

/-- A border without a period extends the edge samples. -/
theorem fold_of_periodOf_eq_none {length : Nat} {border : Border} (positive : 0 < length)
    (aperiodic : periodOf length border = none) (coordinate : Int) :
    border.fold length coordinate = (max 0 (min coordinate (length - 1))).toNat := by
  -- A single sample is the only one that a coordinate can fold onto.
  by_cases single : length = 1
  · have onto := border.fold_lt positive coordinate
    omega
  · cases border with
    | replicate =>
      simp only [fold, place]
      grind
    | reflect | reflect101 | standard => simp [periodOf, single] at aperiodic

end Border

end Raster
