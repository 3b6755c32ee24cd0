import Raster.Box.Axis
import Raster.Element
import Raster.Grid

/-! Window sums of an image: along every row first, then down the columns of row sums. -/

namespace Raster

open Scalar (ofNat one zero)

variable {α S D : Type} [Scalar S] [Wide D S] [Element α S D] {channels : Nat}

/-- The sum of `count` copies of a number; no copies add nothing, even of an infinite number. -/
def repeated (count : Nat) (value : D) : D :=
  if count = 0 then zero else ofNat count * value

/-- Adds `count` copies of a number; no copies leave the sum alone. -/
def addRepeated (count : Nat) (sum value : D) : D :=
  if count = 0 then sum else sum + ofNat count * value

namespace WindowAxis

/-- The sum over one whole period of a row, for each row and channel. -/
def rowPeriods? (axis : WindowAxis) (image : Grid α channels) : Option (Grid D channels) :=
  Grid.tabulate? image.height 1 fun y _ c => do
    let samples ← gather? (fun x => image.at? y x c) axis.periodIndex
    some (samples.foldl (fun sum sample => sum + Element.toDouble sample) zero)

/-- The sum over the window at pixel `x` of row `y`, given the sums over whole periods. -/
def rowSum? (axis : WindowAxis) (image : Grid α channels) (periods : Grid D channels)
    (y x c : Nat) : Option D := do
  let parts := axis.parts x
  -- The run is read sample by sample; copies of the edges and whole periods are multiplied.
  let run ← axis.run? parts
  let samples ← gather? (fun x => image.at? y x c) run
  let first ← image.at? y 0 c
  let last ← (less? image.width 1).bind fun x => image.at? y x c
  let period ← periods.at? y 0 c
  some (Element.total samples + repeated parts.head (Element.toDouble first)
    + repeated parts.tail (Element.toDouble last) + repeated parts.periods period)

/-- The window sums along every row of an image. -/
def rowSums? (axis : WindowAxis) (image : Grid α channels) : Option (Grid D channels) := do
  let periods ← axis.rowPeriods? image
  Grid.tabulate? image.height image.width fun y x c => axis.rowSum? image periods y x c

/-- The sum of row sums over one whole period of a column, for each column and channel. -/
def columnPeriods? (axis : WindowAxis) (sums : Grid D channels) : Option (Grid D channels) :=
  Grid.tabulate? 1 sums.width fun _ x c => do
    let values ← gather? (fun y => sums.at? y x c) axis.periodIndex
    -- Sums are added as they are: they are wide already.
    some (values.foldl (addRepeated 1) zero)

/-- The sum of row sums over the window at row `y`, given the sums over whole periods. -/
def columnSum? (axis : WindowAxis) (sums periods : Grid D channels) (y x c : Nat) : Option D := do
  let parts := axis.parts y
  let run ← axis.run? parts
  let values ← gather? (fun y => sums.at? y x c) run
  let first ← sums.at? 0 x c
  let last ← (less? sums.height 1).bind fun y => sums.at? y x c
  let period ← periods.at? 0 x c
  -- The run, then the copies of either edge, then the periods, in this order.
  let single := values.foldl (addRepeated 1) zero
  let withHead := addRepeated parts.head single first
  let withTail := addRepeated parts.tail withHead last
  some (addRepeated parts.periods withTail period)

end WindowAxis

namespace BoxWindow

/-- The sum over the whole window at every position of an image. -/
def sums? (window : BoxWindow) (image : Grid α channels) : Option (Grid D channels) := do
  let across := WindowAxis.make image.width window.width window.border
  let down := WindowAxis.make image.height window.height window.border
  -- Rows first: the columns are summed over sums of rows.
  let rowSums ← across.rowSums? image
  let periods ← down.columnPeriods? rowSums
  Grid.tabulate? image.height image.width fun y x c => down.columnSum? rowSums periods y x c

/-- What a window sum becomes before it is stored. -/
def scaled (window : BoxWindow) (sum : D) : D :=
  let scale : D := one / (ofNat window.width * ofNat window.height)
  if window.normalize then sum * scale else sum

/-- The filtered image, before its numbers are stored as samples. -/
def values? (window : BoxWindow) (image : Grid α channels) : Option (Grid D channels) := do
  let sums ← window.sums? image
  Grid.tabulate? image.height image.width fun y x c => (sums.at? y x c).map window.scaled

/-- The filtered image. -/
def filter? (window : BoxWindow) (image : Grid α channels) : Option (Grid α channels) := do
  let values : Grid D channels ← window.values? image
  Grid.tabulate? image.height image.width fun y x c => (values.at? y x c).map Element.ofDouble

end BoxWindow

end Raster
