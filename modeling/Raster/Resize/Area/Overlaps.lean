import Raster.Element
import Raster.Grid
import Raster.Refusal
import Raster.Resize.Area.Share

/-! Area averaging by overlap: rows are decimated first, then the decimated rows are combined. -/

namespace Raster.Area.Overlaps

open Scalar (zero)

variable {α S D : Type} [Scalar S] [Wide D S] [Element α S D] {channels : Nat}

/-- The sum of values, each times its weight, in order. -/
def weighted (terms : List (S × S)) : S :=
  terms.foldl (fun sum term => sum + term.1 * term.2) zero

/-- Every source row decimated to the target width. -/
def decimateRows? (image : Grid α channels) (shares : List (Share S)) (width : Nat) :
    Option (Grid S channels) :=
  -- The shares of each destination are collected once, not once for each row.
  let cells := ((List.range width).map fun x =>
    shares.filter (fun share => share.destination = x)).toArray
  Grid.tabulate? image.height width fun y x c => do
    let cell ← cells[x]?
    let terms ← gather? (fun share : Share S =>
      (image.at? y share.source c).map fun value => (Element.toSingle value, share.weight)) cell
    some (weighted terms)

/-- The image of extent `target` whose samples are overlap-weighted means of `image`. -/
def resize? (image : Grid α channels) (target : Extent) : Option (Grid α channels) := do
  let columns ← Share.table? D image.width target.width
  let rows ← Share.table? D image.height target.height
  -- The rows are walked by spans, so their table is cut into stretches.
  let spans ← Share.spans? rows target.height
  let decimated ← decimateRows? image columns target.width
  Grid.tabulate? target.height target.width fun y x c => do
    let span ← spans[y]?
    let cell ← span.of? rows
    let terms ← gather? (fun share : Share S =>
      (decimated.at? share.source x c).map fun value => (value, share.weight)) cell
    some (Element.ofSingle (weighted terms))

end Raster.Area.Overlaps
