import Raster.Border
import Raster.Resize.Tap

/-! Bilinear resizing: destination pixel centres are placed among source pixel centres. -/

namespace Raster.Linear

open Scalar (half ofNat)

variable {α S D : Type} [Scalar S] [Wide D S] [Element α S D] {channels : Nat}

/-- The source coordinate of the centre of destination `d`. -/
def position (D : Type) {S : Type} [Scalar S] [Wide D S] (sourceSize targetSize d : Nat) : D :=
  let scale : D := ofNat sourceSize / ofNat targetSize
  (ofNat d + half) * scale - half

/-- The taps of destination `d`: its two neighbours, the edges repeated beyond the axis. -/
def tap (D : Type) {S : Type} [Scalar S] [Wide D S] (sourceSize targetSize d : Nat) : Tap S :=
  let position : D := position D sourceSize targetSize d
  let base := Scalar.floor position
  let low := Wide.toCoordinate base
  -- Outside the image either end is the edge sample.
  { low := Border.replicate.fold sourceSize low
    high := Border.replicate.fold sourceSize (low + 1)
    weight := Wide.narrow (position - base) }

/-- The taps of a whole axis. -/
def table (D : Type) {S : Type} [Scalar S] [Wide D S] (sourceSize targetSize : Nat) :
    Array (Tap S) :=
  ((List.range targetSize).map (tap D sourceSize targetSize)).toArray

/-- The image of extent `target` blended from `image`. -/
def resize? (image : Grid α channels) (target : Extent) : Option (Grid α channels) :=
  Tap.resize? image (table D image.height target.height) (table D image.width target.width) target

end Raster.Linear
