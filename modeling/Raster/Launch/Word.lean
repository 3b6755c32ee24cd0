import Raster.Box.Axis.Word
import Raster.Norm
import Raster.Resize
import Raster.Resize.Nearest.Word
import Raster.View.Word

/-!
The index arithmetic of kernels in words: sizes, indices and counts are formed as words, as signed
words or, where windows start, as numbers of 128 digits, and what leaves them is a fault.  A kernel
is in words where this arithmetic finds what the kernel uses.
-/

namespace Raster

open Scalar (lt ofNat zero)

namespace Word

/-- A number, if it is a signed word. -/
def signed? (number : Int) : Option Int := if isSigned number then some number else none

/-- Signed numbers of twice as many digits lie below this limit and not below its negative. -/
def longLimit : Int := 0x80000000000000000000000000000000

/-- A number, if it is a signed one of twice as many digits as a word. -/
def long? (number : Int) : Option Int :=
  if -longLimit ≤ number ∧ number < longLimit then some number else none

/-- A product below the limit is a word. -/
theorem product?_of_lt {a b : Nat} (word : a * b < wordLimit) : product? a b = some (a * b) :=
  if_pos word

/-- A sum below the limit is a word. -/
theorem sum?_of_lt {a b : Nat} (word : a + b < wordLimit) : sum? a b = some (a + b) :=
  if_pos word

/-- A number within four words of zero is one of twice as many digits. -/
theorem long?_of_lt {number : Int} (low : -(4 * wordLimit) < number)
    (high : number < 4 * wordLimit) : long? number = some number := by
  have word : wordLimit = 0x10000000000000000 := rfl
  have limit : longLimit = 0x80000000000000000000000000000000 := rfl
  exact if_pos ⟨by omega, by omega⟩

end Word

namespace View

variable {α : Type} {channels : Nat}

/-- The place of channel `c` of pixel `x` in a row; a pixel ends at the place after its channels. -/
def placeWord? (channels x c : Nat) : Option Nat := do
  let pixel ← Word.product? x channels
  Word.sum? pixel c

/-- Where row `y` of a packed buffer starts and ends, given the length of its rows. -/
def packedRowWord? (length y : Nat) : Option (Nat × Nat) := do
  let start ← Word.product? y length
  -- A row ends where the next one would start.
  let next ← Word.sum? y 1
  let stop ← Word.product? next length
  some (start, stop)

/-- Addressing a view forms only words: its rows, its pixels, the places in a row, and the rows of a
packed buffer of its extent. -/
structure InWords (view : View α channels) : Prop where
  rows : ∀ y, y < view.layout.height →
    ∃ samples, view.rowWord? y = some samples ∧ view.row? y = some samples
  pixels : ∀ y x, y < view.layout.height → x < view.layout.width →
    ∃ samples, view.pixelWord? y x = some samples ∧ view.pixel? y x = some samples
  places : ∀ x c, x < view.layout.width → c ≤ channels →
    placeWord? channels x c = some (x * channels + c)
  -- Row sums and decimated rows are kept in buffers without gaps.
  packedRows : ∀ y, y < view.layout.height →
    packedRowWord? (view.layout.rowLength channels) y =
      some (y * view.layout.rowLength channels, (y + 1) * view.layout.rowLength channels)

end View

section Resizing

variable {S : Type} [Scalar S]

/-- Copying along an axis forms only words. -/
def Nearest.InWords (sourceSize targetSize : Nat) : Prop :=
  tableWord? sourceSize targetSize = some (table sourceSize targetSize)

namespace Linear

/-- The taps of destination `d`, the coordinate after the first one formed as a signed word. -/
def tapWord? (D : Type) [Wide D S] (sourceSize targetSize d : Nat) : Option (Tap S) := do
  let position : D := position D sourceSize targetSize d
  let base := Scalar.floor position
  let low := Wide.toCoordinate base
  -- The coordinate after the last one would be no signed word.
  let next ← Word.signed? (low + 1)
  let first ← Border.replicate.foldWord? sourceSize low
  let second ← Border.replicate.foldWord? sourceSize next
  some ⟨first, second, Wide.narrow (position - base)⟩

/-- Blending along an axis forms only signed words. -/
def InWords (sourceSize targetSize : Nat) : Prop :=
  ∀ d, d < targetSize →
    tapWord? Float sourceSize targetSize d = some (tap Float sourceSize targetSize d)

end Linear

namespace Area

/-- The taps of destination `d`, the indices after its own and after its sample formed in words. -/
def Growth.tapWord? (D : Type) [Wide D S] (sourceSize targetSize d : Nat) : Option (Tap S) := do
  let scale : D := ofNat sourceSize / ofNat targetSize
  let inverse : D := ofNat targetSize / ofNat sourceSize
  let sample := Wide.toIndex (Scalar.floor (ofNat d * scale))
  let next ← Word.sum? d 1
  -- The sample is read off a double, which may lie past every axis.
  let after ← Word.sum? sample 1
  let reach : S := Wide.narrow (ofNat next - ofNat after * inverse)
  let weight := if lt zero reach then reach - Scalar.floor reach else zero
  let last ← less? sourceSize 1
  if last ≤ sample then some ⟨last, last, zero⟩ else some ⟨sample, after, weight⟩

/-- Averaging along a growing axis forms only words. -/
def Growth.InWords (sourceSize targetSize : Nat) : Prop :=
  ∀ d, d < targetSize → ∃ tap, tapWord? Float sourceSize targetSize d = some tap ∧
    tap? Float sourceSize targetSize d = some tap

namespace Share

/-- Closes spans as `collectSpans?` does, the index after an entry formed in words. -/
def collectSpansWord? (spans : Array Span) (index start : Nat) :
    List (Share S) → Option (Array Span)
  | [] => some spans
  | entry :: rest => do
    -- The index after an entry is where the next span starts.
    let next ← Word.sum? index 1
    if rest.head?.map Share.destination = some entry.destination then
      collectSpansWord? spans next start rest
    else if entry.destination < spans.size then
      collectSpansWord? (spans.setIfInBounds entry.destination ⟨start, next⟩) next next rest
    else none

/-- The span of a table that belongs to each destination, found in words. -/
def spansWord? (table : List (Share S)) (targetSize : Nat) : Option (Array Span) :=
  collectSpansWord? (Array.replicate targetSize ⟨0, 0⟩) 0 0 table

/-- Weighting along an axis that does not grow forms only words. -/
structure InWords (sourceSize targetSize : Nat) : Prop where
  -- The table is given room for two entries of each sample before it is filled.
  room : Word.product? sourceSize 2 = some (sourceSize * 2)
  spans : ∃ table spans, table? Float sourceSize targetSize = some table ∧
    spansWord? table targetSize = some spans ∧ spans? table targetSize = some spans

end Share

namespace Blocks

/-- The source pixels of a block, its rows and columns delimited in words. -/
def positionsWord? (across down y x : Nat) : Option (List (Nat × Nat)) := do
  let firstRow ← Word.product? y down
  let stopRow ← Word.sum? firstRow down
  let firstColumn ← Word.product? x across
  let stopColumn ← Word.sum? firstColumn across
  some ((List.range' firstRow (stopRow - firstRow)).flatMap fun row =>
    (List.range' firstColumn (stopColumn - firstColumn)).map fun column => (row, column))

/-- Averaging blocks forms only words. -/
structure InWords (across down : Nat) (target : Extent) : Prop where
  -- The reciprocal of a block is taken of its size.
  size : Word.product? across down = some (across * down)
  blocks : ∀ y x, y < target.height → x < target.width →
    positionsWord? across down y x = some (positions across down y x)

end Blocks

end Area

/-- Both axes of two extents have a property. -/
def Extent.BothAxes (holds : Nat → Nat → Prop) (source target : Extent) : Prop :=
  holds source.height target.height ∧ holds source.width target.width

/-- Resizing one extent to another forms only words and signed words. -/
def Resampling.InWords (mode : Resampling) (source target : Extent) : Prop :=
  match mode with
  | .nearest => Extent.BothAxes Nearest.InWords source target
  | .linear => Extent.BothAxes Linear.InWords source target
  | .area =>
    match Area.plan? source target with
    | some (.blocks across down) => Area.Blocks.InWords across down target
    | some .overlaps => Extent.BothAxes Area.Share.InWords source target
    | some .growth => Extent.BothAxes Area.Growth.InWords source target
    -- A plan that faults is carried out in no words.
    | none => False

end Resizing

namespace WindowAxis

/-- The parts of the window at `position`, its ends formed as numbers of 128 digits and the end of
its run as a word. -/
def partsWord? (axis : WindowAxis) (position : Nat) : Option WindowParts := do
  let start ← Word.long? ((position : Int) - anchor axis.size)
  match axis.period? with
  | some period =>
    let first := (start % period).toNat
    let stop ← Word.sum? first (axis.size % period)
    some ⟨0, 0, axis.size / period, first, stop⟩
  | none =>
    -- What lies outside the axis is counted by negating and by subtracting its length.
    let stop ← Word.long? (start + axis.size)
    let before ← Word.long? (-start)
    let behind ← Word.long? (stop - axis.length)
    let first := clamp 0 axis.length start
    let last := clamp first axis.length stop
    some ⟨(clamp 0 axis.size before).toNat, (clamp 0 axis.size behind).toNat, 0, first.toNat,
      last.toNat⟩

/-- Windows of `size` samples along an axis are placed in words. -/
structure InWords (length size : Nat) (border : Border) : Prop where
  made : makeWord? length size border = some (make length size border)
  parts : ∀ position, position < length →
    (make length size border).partsWord? position =
      some ((make length size border).parts position)

end WindowAxis

/-- A window is placed in words along both axes of an extent. -/
def BoxWindow.InWords (window : BoxWindow) (extent : Extent) : Prop :=
  WindowAxis.InWords extent.height window.height window.border ∧
    WindowAxis.InWords extent.width window.width window.border

namespace RowGroups

/-- The rows of a group, delimited in words before they are cut off at the image's end. -/
def rowsWord? (groups : RowGroups) (group : Nat) : Option (List Nat) := do
  let first ← Word.product? group groups.rowsPerGroup
  let start := min first groups.height
  -- The end is formed before it is cut off.
  let next ← Word.sum? start groups.rowsPerGroup
  some (List.range' start (min next groups.height - start))

/-- The groups of at most `limit` that rows are summed in are delimited in words. -/
def InWords (height limit : Nat) : Prop :=
  ∃ groups, of? height limit = some groups ∧
    ∀ group, group < groups.count → groups.rowsWord? group = some (groups.rows group)

end RowGroups

end Raster
