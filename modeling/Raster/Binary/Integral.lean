/-! Whole numbers near a binary number: floor, ceiling, and nearest with halves away from zero. -/

namespace Raster.Binary

open Float.Model (Format UnpackedFloat)
open Float.Model.UnpackedFloat (Sign)

/-- The side on which a fraction is resolved. -/
inductive Direction where
  | down
  | up
  | nearestAway
  deriving DecidableEq, Repr

/-- The magnitude chosen for a number of the given sign and magnitude `whole + part / unit`. -/
def Direction.magnitude (direction : Direction) (sign : Sign) (whole part unit : Nat) : Nat :=
  match direction, sign with
  -- Going down enlarges a negative magnitude, and only when a fraction is present.
  | .down, .positive => whole
  | .down, .negative => if part = 0 then whole else whole + 1
  | .up, .positive => if part = 0 then whole else whole + 1
  | .up, .negative => whole
  -- A half belongs to the larger magnitude on both sides of zero.
  | .nearestAway, _ => if 2 * part < unit then whole else whole + 1

/-- The whole number that `direction` assigns to a number; zeros, infinities and NaN stay. -/
def integral (format : Format) (direction : Direction) : UnpackedFloat → UnpackedFloat
  | .finite sign mantissa exponent positive =>
    -- A number with a non-negative exponent has no fraction.
    if 0 ≤ exponent then .finite sign mantissa exponent positive
    else
      let unit := 1 <<< (-exponent).toNat
      let magnitude := direction.magnitude sign (mantissa / unit) (mantissa % unit) unit
      -- A magnitude of zero keeps the sign of the number.
      UnpackedFloat.round format sign magnitude 0
  | other => other

end Raster.Binary
