import Raster.Box.Window
import Raster.Gather

/-!
Windows along one axis, taken apart so that the work is bounded by the axis and not by the window:
copies of the edge samples, whole border periods, and a run of single samples.
-/

namespace Raster

/-- The parts of a window at one position of an axis. -/
structure WindowParts where
  /-- Copies of the first sample. -/
  head : Nat
  /-- Copies of the last sample. -/
  tail : Nat
  /-- Whole border periods. -/
  periods : Nat
  /-- The run of single samples, from `first` up to `stop` in the axis's index. -/
  first : Nat
  stop : Nat
  deriving DecidableEq, Repr

/-- An axis of `length` samples under a window of `size` samples. -/
structure WindowAxis where
  length : Nat
  size : Nat
  /-- The length of the border's period, absent where the edge samples extend. -/
  period? : Option Nat
  /-- The sample that stands at each place a run can reach. -/
  index : List Nat
  deriving Repr

namespace WindowAxis

/-- The period with which a border repeats an axis, if it does. -/
def periodOf (length : Nat) (border : Border) : Option Nat :=
  -- A single sample extends under every border.
  if length = 1 then none
  else
    match border with
    | .replicate => none
    | .reflect => some (2 * length)
    | .reflect101 | .standard => some (2 * length - 2)

/-- The axis of `length` samples under a window of `size` samples. -/
def make (length size : Nat) (border : Border) : WindowAxis :=
  let period? := periodOf length border
  { length, size, period?
    index :=
      match period? with
      -- A run is shorter than a period and starts inside the first one.
      | some period => border.table 0 (2 * period) length
      | none => List.range length }

/-- The samples of one whole period, none where the edge samples extend. -/
def periodIndex (axis : WindowAxis) : List Nat :=
  match axis.period? with
  | some period => axis.index.take period
  -- Without a period only the run and the edges are counted.
  | none => []

/-- The coordinate at which the window at `position` starts. -/
def windowStart (axis : WindowAxis) (position : Nat) : Int :=
  (position : Int) - anchor axis.size

/-- The coordinate after the last one of the window at `position`. -/
def windowStop (axis : WindowAxis) (position : Nat) : Int :=
  axis.windowStart position + axis.size

/-- A number moved into the interval from `low` to `high`. -/
def clamp (low high value : Int) : Int := max low (min value high)

/-- The parts of the window at `position`. -/
def parts (axis : WindowAxis) (position : Nat) : WindowParts :=
  let start := axis.windowStart position
  match axis.period? with
  | some period =>
    -- A remainder of the window starts anywhere in the period, so the index holds two of them.
    let first := (start % period).toNat
    ⟨0, 0, axis.size / period, first, first + axis.size % period⟩
  | none =>
    let stop := axis.windowStop position
    let first := clamp 0 axis.length start
    let last := clamp first axis.length stop
    ⟨(clamp 0 axis.size (-start)).toNat, (clamp 0 axis.size (stop - axis.length)).toNat, 0,
      first.toNat, last.toNat⟩

/-- The samples of a window's run, a fault when it leaves the index. -/
def run? (axis : WindowAxis) (parts : WindowParts) : Option (List Nat) :=
  -- A run past the end of the index is a fault.
  if parts.first ≤ parts.stop ∧ parts.stop ≤ axis.index.length then
    some ((axis.index.drop parts.first).take (parts.stop - parts.first))
  else none

end WindowAxis

end Raster
