import Raster.SampleType
import Raster.Scalar

/-!
Samples as numbers: how a sample is read into the working arithmetic and how a result is stored
back, for bytes, binary32 samples and exact rationals.
-/

namespace Raster

open Scalar (zero)

/-- Samples that kernels can read and store. -/
class Element (α : Type) (S D : outParam Type) where
  toSingle : α → S
  toDouble : α → D
  /-- The sum of a run of samples, in order. -/
  total : List α → D
  ofSingle : S → α
  ofDouble : D → α

namespace Byte

/-- The byte in range nearest to a whole number; all that is not below 255, even NaN, gives 255. -/
def clamp (x : Float32) : UInt8 :=
  if x < Binary.single 255 then
    if Binary.single 0 < x then x.toUInt8 else 0
  else 255

/-- The byte stored for a single: the nearest whole number, halves away from zero, in range. -/
def ofSingle (x : Float32) : UInt8 := clamp (Binary.wholeSingle .nearestAway x)

/-- The byte stored for a double: its nearest whole number is narrowed before it is put in range. -/
def ofDouble (x : Float) : UInt8 := clamp (Binary.narrow (Binary.wholeDouble .nearestAway x))

/-- The sum of a run of bytes, formed in integers and rounded once. -/
def total (run : List UInt8) : Float :=
  Binary.double (run.foldl (fun sum byte => sum + byte.toNat) 0)

end Byte

namespace Binary32

/-- The number that a sample's bits encode. -/
def toSingle (sample : Binary32) : Float32 := Float32.ofBits sample.bits

/-- The same number as a double. -/
def toDouble (sample : Binary32) : Float := Binary.widen sample.toSingle

/-- The sample that encodes a single. -/
def ofSingle (x : Float32) : Binary32 := ⟨x.toBits⟩

end Binary32

instance : Element UInt8 Float32 Float where
  toSingle := UInt8.toFloat32
  toDouble := UInt8.toFloat
  total := Byte.total
  ofSingle := Byte.ofSingle
  ofDouble := Byte.ofDouble

instance : Element Binary32 Float32 Float where
  toSingle := Binary32.toSingle
  toDouble := Binary32.toDouble
  -- Doubles are added one after another, starting from zero.
  total run := run.foldl (fun sum sample => sum + sample.toDouble) zero
  ofSingle := Binary32.ofSingle
  ofDouble x := Binary32.ofSingle (Binary.narrow x)

/-- Exact samples: reading and storing change no value. -/
instance : Element Rat Rat Rat where
  toSingle x := x
  toDouble x := x
  total run := run.foldl (· + ·) zero
  ofSingle x := x
  ofDouble x := x

instance : (depth : Depth) → Element depth.Sample Float32 Float
  | .byte => inferInstanceAs (Element UInt8 Float32 Float)
  | .single => inferInstanceAs (Element Binary32 Float32 Float)

end Raster
