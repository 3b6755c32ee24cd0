import Raster.Element
import Raster.Grid
import Raster.Refusal

/-! Two-tap blending: a destination sample mixes two source rows and two source columns. -/

namespace Raster

open Scalar (one)

/-- The two source samples that a destination index mixes on one axis. -/
structure Tap (S : Type) where
  low : Nat
  high : Nat
  /-- The share of `high`; `low` takes the rest. -/
  weight : S
  deriving DecidableEq, Repr

namespace Tap

variable {α S D : Type} [Scalar S] [Wide D S] [Element α S D] {channels : Nat}

/-- The blend of two numbers in which the second has the given share. -/
def mix (weight low high : S) : S := low * (one - weight) + high * weight

/-- The blend of four samples: along each of the two rows first, then between them. -/
def blend (rowWeight columnWeight : S) (upperLow upperHigh lowerLow lowerHigh : α) : S :=
  -- Along the rows first, then between them: all four samples are multiplied.
  mix rowWeight
    (mix columnWeight (Element.toSingle upperLow) (Element.toSingle upperHigh))
    (mix columnWeight (Element.toSingle lowerLow) (Element.toSingle lowerHigh))

/-- The sample that a row tap and a column tap give for one channel. -/
def sample? (image : Grid α channels) (row column : Tap S) (c : Nat) : Option α := do
  let upperLow ← image.at? row.low column.low c
  let upperHigh ← image.at? row.low column.high c
  let lowerLow ← image.at? row.high column.low c
  let lowerHigh ← image.at? row.high column.high c
  -- All four samples take part, also those whose share is zero.
  some (Element.ofSingle (blend row.weight column.weight upperLow upperHigh lowerLow lowerHigh))

/-- The image whose samples are blended through one table of taps for each axis. -/
def resize? (image : Grid α channels) (rows columns : Array (Tap S)) (target : Extent) :
    Option (Grid α channels) :=
  Grid.tabulate? target.height target.width fun y x c => do
    let row ← rows[y]?
    let column ← columns[x]?
    sample? image row column c

end Tap

end Raster
