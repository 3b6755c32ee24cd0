/-! The sample types that a descriptor may name, and the depths that kernels are built for. -/

namespace Raster

/-- A sample type named by an image descriptor. -/
inductive SampleType where
  | u8
  | u16
  | i16
  | f32
  | f64
  deriving DecidableEq, Repr

/-- A binary32 sample kept as its bits, so that copying it keeps the payload of a NaN. -/
structure Binary32 where
  bits : UInt32
  deriving DecidableEq, Repr

/-- A sample type that kernels can process. -/
inductive Depth where
  | byte
  | single
  deriving DecidableEq, Repr

namespace SampleType

/-- The name under which messages and reports show the type. -/
def name : SampleType → String
  | .u8 => "U8"
  | .u16 => "U16"
  | .i16 => "I16"
  | .f32 => "F32"
  | .f64 => "F64"

/-- Bytes taken by one sample. -/
def size : SampleType → Nat
  | .u8 => 1
  | .u16 | .i16 => 2
  | .f32 => 4
  | .f64 => 8

/-- The depth at which samples of the type are processed, if there is one. -/
def depth? : SampleType → Option Depth
  | .u8 => some .byte
  | .f32 => some .single
  -- The other types can be described but not computed with.
  | _ => none

/-- Whether kernels exist for the type. -/
def isSupported (type : SampleType) : Bool := type.depth?.isSome

end SampleType

namespace Depth

/-- The samples of a depth. -/
abbrev Sample : Depth → Type
  | .byte => UInt8
  | .single => Binary32

/-- The sample type that names the depth in descriptors. -/
def sampleType : Depth → SampleType
  | .byte => .u8
  | .single => .f32

/-- Bytes taken by one sample. -/
def size (depth : Depth) : Nat := depth.sampleType.size

end Depth

end Raster
