import Raster.Gather
import Raster.Resize.Tap

/-! Area averaging on a growing axis: a destination cell meets one source sample or two. -/

namespace Raster.Area.Growth

open Scalar (lt ofNat zero)

variable {α S D : Type} [Scalar S] [Wide D S] [Element α S D] {channels : Nat}

/-- The taps of destination `d`: the sample where its cell starts and the next one. -/
def tap? (D : Type) {S : Type} [Scalar S] [Wide D S] (sourceSize targetSize d : Nat) :
    Option (Tap S) := do
  let scale : D := ofNat sourceSize / ofNat targetSize
  let inverse : D := ofNat targetSize / ofNat sourceSize
  let sample := Wide.toIndex (Scalar.floor (ofNat d * scale))
  -- How far the cell reaches past the end of its first sample, in destination steps.
  let reach : S := Wide.narrow (ofNat (d + 1) - ofNat (sample + 1) * inverse)
  let weight := if lt zero reach then reach - Scalar.floor reach else zero
  let last ← less? sourceSize 1
  if last ≤ sample then some ⟨last, last, zero⟩ else some ⟨sample, sample + 1, weight⟩

/-- The taps of a whole axis. -/
def table? (D : Type) {S : Type} [Scalar S] [Wide D S] (sourceSize targetSize : Nat) :
    Option (Array (Tap S)) :=
  (gather? (tap? D sourceSize targetSize) (List.range targetSize)).map List.toArray

/-- The image of extent `target` blended from `image` by area. -/
def resize? (image : Grid α channels) (target : Extent) : Option (Grid α channels) := do
  let columns ← table? D image.width target.width
  let rows ← table? D image.height target.height
  Tap.resize? image rows columns target

end Raster.Area.Growth
