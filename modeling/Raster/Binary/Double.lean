import Raster.Binary.Integral

/-! Binary64 numbers: whole numbers, indices, coordinates, and exchange with binary32. -/

namespace Raster.Binary

open Float.Model (UnpackedFloat)

/-- The number in another format, rounded to nearest with ties to even. -/
def convert (format : Float.Model.Format) : UnpackedFloat → UnpackedFloat
  | .finite sign mantissa exponent _ => UnpackedFloat.round format sign mantissa exponent
  | other => other

/-- The double nearest to a natural number. -/
def double (n : Nat) : Float := .ofModel (.ofNat n)

/-- The single nearest to a natural number. -/
def single (n : Nat) : Float32 := .ofModel (.ofNat n)

/-- The single nearest to a double. -/
def narrow (x : Float) : Float32 := .ofModel (.pack (convert .binary32 x.toModel.unpack))

/-- The double equal to a single. -/
def widen (x : Float32) : Float := .ofModel (.pack (convert .binary64 x.toModel.unpack))

/-- The whole double that `direction` assigns to a double. -/
def wholeDouble (direction : Direction) (x : Float) : Float :=
  .ofModel (.pack (integral .binary64 direction x.toModel.unpack))

/-- The whole single that `direction` assigns to a single. -/
def wholeSingle (direction : Direction) (x : Float32) : Float32 :=
  .ofModel (.pack (integral .binary32 direction x.toModel.unpack))

/-- A double truncated to an unsigned word; negative numbers and NaN give zero. -/
def toIndex (x : Float) : Nat := x.toUInt64.toNat

/-- A double truncated to a signed word; NaN gives zero. -/
def toCoordinate (x : Float) : Int := x.toModel.toInt64.toInt

end Raster.Binary
