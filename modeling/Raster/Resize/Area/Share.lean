import Raster.Gather
import Raster.Scalar

/-!
Decimation tables: which source samples a destination cell covers on one axis, and with what share
of the cell.
-/

namespace Raster.Area

open Scalar (lt ofNat one smaller thousandth)

/-- The share of one source sample in one destination cell. -/
structure Share (S : Type) where
  destination : Nat
  source : Nat
  weight : S
  deriving DecidableEq, Repr

/-- Consecutive entries of a table, from `start` up to `stop`. -/
structure Span where
  start : Nat
  stop : Nat
  deriving DecidableEq, Repr

/-- The entries of a span. -/
def Span.of? {α : Type} (span : Span) (table : List α) : Option (List α) :=
  -- A stretch past the end of the table is a fault.
  if span.start ≤ span.stop ∧ span.stop ≤ table.length then
    some ((table.drop span.start).take (span.stop - span.start))
  else none

namespace Share

variable {S D : Type} [Scalar S] [Wide D S]

/-- The shares of destination `d`, in ascending order of their sources. -/
def cell? (D : Type) {S : Type} [Scalar S] [Wide D S] (sourceSize targetSize d : Nat) :
    Option (List (Share S)) := do
  let scale : D := ofNat sourceSize / ofNat targetSize
  let start := ofNat d * scale
  let stop := start + scale
  -- The last cell may reach past the image, and only its covered part counts.
  let covered := smaller scale (ofNat sourceSize - start)
  let last ← less? sourceSize 1
  let stopSample := min (Wide.toIndex (Scalar.floor stop)) last
  let startSample := min (Wide.toIndex (Wide.ceil start)) stopSample
  let before := ofNat startSample - start
  let after := stop - ofNat stopSample
  let head ← if lt thousandth before then do
      let sample ← less? startSample 1
      some [⟨d, sample, Wide.narrow (before / covered)⟩]
    else some []
  let body := (List.range' startSample (stopSample - startSample)).map fun sample =>
    ⟨d, sample, Wide.narrow (one / covered)⟩
  let tail := if lt thousandth after then
      [⟨d, stopSample, Wide.narrow (smaller (smaller after one) covered / covered)⟩]
    else []
  some (head ++ body ++ tail)

/-- The shares of all destinations, one destination after another. -/
def table? (D : Type) {S : Type} [Scalar S] [Wide D S] (sourceSize targetSize : Nat) :
    Option (List (Share S)) :=
  (gather? (cell? D sourceSize targetSize) (List.range targetSize)).map List.flatten

/-- Closes a span wherever the next entry belongs to another destination. -/
def collectSpans? (spans : Array Span) (index start : Nat) : List (Share S) → Option (Array Span)
  | [] => some spans
  | entry :: rest =>
    -- The stretch goes on while the next entry is for the same destination.
    if rest.head?.map Share.destination = some entry.destination then
      collectSpans? spans (index + 1) start rest
    else if entry.destination < spans.size then
      collectSpans? (spans.setIfInBounds entry.destination ⟨start, index + 1⟩) (index + 1)
        (index + 1) rest
    else none

/-- The span of a table that belongs to each destination, empty where there is none. -/
def spans? (table : List (Share S)) (targetSize : Nat) : Option (Array Span) :=
  collectSpans? (Array.replicate targetSize ⟨0, 0⟩) 0 0 table

end Share

end Raster.Area
