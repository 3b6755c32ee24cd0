import Raster.SampleType

/-! Samples as bytes: the lowest byte of a sample comes first. -/

namespace Raster

namespace Binary32

/-- The four bytes of a sample, lowest first. -/
def encode (sample : Binary32) : List UInt8 :=
  [sample.bits.toUInt8, (sample.bits >>> 8).toUInt8, (sample.bits >>> 16).toUInt8,
    (sample.bits >>> 24).toUInt8]

/-- The sample that four bytes make up, the lowest of them first. -/
def ofBytes (first second third fourth : UInt8) : Binary32 :=
  ⟨first.toUInt32 ||| second.toUInt32 <<< 8 ||| third.toUInt32 <<< 16 ||| fourth.toUInt32 <<< 24⟩

/-- The samples in a list of bytes, lowest byte first; fewer than four bytes hold none. -/
def decodeAll : List UInt8 → List Binary32
  | first :: second :: third :: fourth :: rest =>
    ofBytes first second third fourth :: decodeAll rest
  -- Fewer than four bytes make no single.
  | _ => []

end Binary32

namespace Depth

/-- The bytes of samples. -/
def encode : (depth : Depth) → List depth.Sample → List UInt8
  | .byte, samples => samples
  | .single, samples => samples.flatMap Binary32.encode

/-- The whole samples in a list of bytes. -/
def decode : (depth : Depth) → List UInt8 → List depth.Sample
  | .byte, bytes => bytes
  | .single, bytes => Binary32.decodeAll bytes

end Depth

end Raster
