import Raster.Element
import Raster.View

/-!
Norms of images: rows are summed in groups from zero, and the partial results are combined in the
order of the groups.
-/

namespace Raster

open Scalar (larger zero)

/-- A norm of the samples of an image. -/
inductive NormKind where
  /-- The largest absolute value. -/
  | inf
  /-- The sum of absolute values. -/
  | l1
  /-- The square root of the sum of squares. -/
  | l2
  deriving DecidableEq, Repr

namespace NormKind

/-- The norm selected by a numeric code. -/
def ofCode (code : Int) : Except Refusal NormKind :=
  if code = 1 then .ok .inf
  else if code = 2 then .ok .l1
  else if code = 4 then .ok .l2
  else .error (.unknownNorm code)

/-- The code that selects a norm. -/
def code : NormKind → Int
  | .inf => 1
  | .l1 => 2
  | .l2 => 4

variable {S D : Type} [Scalar S] [Wide D S]

/-- Takes one sample into a partial result. -/
def accumulate (kind : NormKind) (partialResult value : D) : D :=
  match kind with
  -- A comparison with NaN is false, so the partial result stays.
  | .inf => larger partialResult (Wide.abs value)
  | .l1 => partialResult + Wide.abs value
  | .l2 => partialResult + value * value

/-- Joins two partial results. -/
def combine (kind : NormKind) (left right : D) : D :=
  match kind with
  | .inf => larger left right
  | .l1 | .l2 => left + right

/-- The norm given by the combined result. -/
def finish (kind : NormKind) (combined : Float) : Float :=
  match kind with
  | .inf | .l1 => combined
  -- The only root: partial results are sums of squares.
  | .l2 => combined.sqrt

end NormKind

/-- The division of `height` rows into groups of consecutive rows. -/
structure RowGroups where
  height : Nat
  count : Nat
  rowsPerGroup : Nat
  deriving DecidableEq, Repr

namespace RowGroups

/-- At most `limit` groups of equally many rows, save for the last ones; no groups are a fault. -/
def of? (height limit : Nat) : Option RowGroups :=
  let count := min limit height
  if count = 0 then none else some ⟨height, count, (height + count - 1) / count⟩

/-- The first row of a group, the image's end when the rows run out. -/
def start (groups : RowGroups) (group : Nat) : Nat :=
  min (group * groups.rowsPerGroup) groups.height

/-- The row after the last one of a group. -/
def stop (groups : RowGroups) (group : Nat) : Nat :=
  min (groups.start group + groups.rowsPerGroup) groups.height

/-- The rows of a group. -/
def rows (groups : RowGroups) (group : Nat) : List Nat :=
  List.range' (groups.start group) (groups.stop group - groups.start group)

end RowGroups

namespace NormKind

variable {α S D : Type} [Scalar S] [Wide D S] [Element α S D] {channels : Nat}

/-- The samples of pixel `x` of row `y`. -/
def pixel? (image : Grid α channels) (y x : Nat) : Option (List α) :=
  gather? (fun c => image.at? y x c) (List.range channels)

/-- The samples of row `y` that count: all of them, or those of pixels whose mask is not zero. -/
def selected? (image : Grid α channels) (mask : Option (Grid UInt8 1)) (y : Nat) :
    Option (List α) := do
  let pixels ← gather? (pixel? image y) (List.range image.width)
  match mask with
  | none => some pixels.flatten
  | some mask =>
    let marks ← mask.row? y
    -- Pixels and marks are paired in order; a mark covers all channels of its pixel.
    some ((pixels.zip marks).filter (fun pair => pair.2 ≠ 0)).unzip.1.flatten

/-- The partial result of some rows, summed from zero in order. -/
def partialOf? (kind : NormKind) (image : Grid α channels) (mask : Option (Grid UInt8 1))
    (rows : List Nat) : Option D := do
  let samples ← gather? (selected? image mask) rows
  -- Samples are widened before they are squared or added.
  let values := samples.flatten.map Element.toDouble
  some (values.foldl kind.accumulate zero)

/-- The combined result of an image whose rows are summed in at most `limit` groups. -/
def combined? (kind : NormKind) (image : Grid α channels) (mask : Option (Grid UInt8 1))
    (limit : Nat) : Option D := do
  let groups ← RowGroups.of? image.height limit
  let partials ← gather? (fun group => kind.partialOf? image mask (groups.rows group))
    (List.range groups.count)
  -- The groups are combined in order, whoever reduced them first.
  some (partials.foldl kind.combine zero)

/-- The norm of an image whose rows are summed in at most `limit` groups. -/
def norm? [Element α Float32 Float] (kind : NormKind) (image : Grid α channels)
    (mask : Option (Grid UInt8 1)) (limit : Nat) : Option Float :=
  (kind.combined? image mask limit).map kind.finish

end NormKind

/-- The norm of the visible samples of a view, or of those selected by a mask of its extent. -/
def norm {α : Type} [Element α Float32 Float] {channels : Nat} (kind : NormKind) (limit : Nat)
    (source : View α channels) (mask : Option (View UInt8 1)) : Except Refusal (Option Float) := do
  checkChannels channels
  match mask with
  | none => return do
    let image ← source.load?
    kind.norm? image none limit
  -- The extents are compared before any sample is read.
  | some mask =>
    checkExtent source.extent mask.extent
    return do
      let image ← source.load?
      let marks ← mask.load?
      kind.norm? image (some marks) limit

end Raster
