import Raster.Border

/-! The window of a box filter and the policy for its samples outside the image. -/

namespace Raster

/-- A window of `width` by `height` samples. -/
structure BoxWindow where
  width : Nat
  height : Nat
  /-- Whether window sums are divided by the number of window samples. -/
  normalize : Bool
  border : Border
  deriving DecidableEq, Repr

namespace BoxWindow

/-- A normalized window with the standard border; both sides must be positive. -/
def make (width height : Nat) : Except Refusal BoxWindow :=
  if width = 0 ∨ height = 0 then .error (.emptyWindow width height)
  else .ok ⟨width, height, true, .standard⟩

end BoxWindow

/-- A window as it is asked for, its border still a code. -/
structure WindowRequest where
  width : Nat
  height : Nat
  border : Option Int
  normalize : Bool
  deriving DecidableEq, Repr

/-- The window that is asked for: its sides are judged first, then its border. -/
def WindowRequest.window (request : WindowRequest) : Except Refusal BoxWindow := do
  let window ← BoxWindow.make request.width request.height
  -- The sides are judged before the border code.
  let border ← Border.ofCode? request.border
  return { window with border, normalize := request.normalize }

/-- Samples before the anchor of a window; an even window reaches one further before than after. -/
def anchor (size : Nat) : Nat := size / 2

end Raster
