import Raster.Proofs.Binary.Sign
import Raster.Proofs.Grid
import Raster.Proofs.Resize.Spans
import Raster.Resize.Area.Overlaps

/-!
Area averaging by overlap, as a function of the samples it reads.  Main statement:
`Overlaps.exists_resize?`, it never faults and combines the shares of a row cell and a column cell.
-/

namespace Raster.Area

open Scalar (lt ofNat one smaller thousandth zero)

variable {α S D : Type} [Scalar S] [Wide D S] [Element α S D] {channels : Nat}
variable {sourceSize targetSize d : Nat}

namespace Share

/-- No cell starts so far below the first sample that a sample before it would be asked for. -/
def StartsInside (D : Type) {S : Type} [Scalar S] [Wide D S] : Prop :=
  ∀ sourceSize targetSize d : Nat,
    lt thousandth (ofNat 0 - ofNat d * (ofNat sourceSize / ofNat targetSize) : D) = false

/-- In doubles the start of a cell is a product of numbers without the negative sign. -/
theorem startsInside_float : StartsInside Float := fun sourceSize targetSize d =>
  Binary.not_lt_zero_sub ((Binary.unsigned_double d).mul
    ((Binary.unsigned_double sourceSize).div (Binary.unsigned_double targetSize)))

/-- The shares of destination `d` on a source axis that has samples. -/
def cell (D : Type) {S : Type} [Scalar S] [Wide D S] (sourceSize targetSize d : Nat) :
    List (Share S) :=
  let scale : D := ofNat sourceSize / ofNat targetSize
  let start := ofNat d * scale
  let stop := start + scale
  -- The last cell is cut off at the end of the source.
  let covered := smaller scale (ofNat sourceSize - start)
  let stopSample := min (Wide.toIndex (Scalar.floor stop)) (sourceSize - 1)
  let startSample := min (Wide.toIndex (Wide.ceil start)) stopSample
  let before := ofNat startSample - start
  let after := stop - ofNat stopSample
  (if lt thousandth before then [⟨d, startSample - 1, Wide.narrow (before / covered)⟩] else []) ++
    ((List.range' startSample (stopSample - startSample)).map fun sample =>
      ⟨d, sample, Wide.narrow (one / covered)⟩) ++
    if lt thousandth after then
      [⟨d, stopSample, Wide.narrow (smaller (smaller after one) covered / covered)⟩]
    else []

/-- Where a cell starts well before its first whole sample, there is a sample before that one. -/
theorem less?_of_early (starts : StartsInside D) {sample : Nat}
    (early : lt thousandth
      (ofNat sample - ofNat d * (ofNat sourceSize / ofNat targetSize) : D) = true) :
    less? sample 1 = some (sample - 1) := by
  -- At the first sample the overlap before it is one that never counts.
  refine if_pos (Nat.pos_of_ne_zero fun first => ?_)
  rw [first, starts] at early
  exact absurd early nofun

/-- On a source axis that has samples every destination has a cell. -/
theorem cell?_eq_cell (starts : StartsInside D) (positive : 0 < sourceSize) :
    cell? D sourceSize targetSize d = some (cell D sourceSize targetSize d) := by
  -- The one difference that could fall below zero is taken only where it does not.
  have last : less? sourceSize 1 = some (sourceSize - 1) := if_pos positive
  simp only [cell?, last, Option.bind_eq_bind, Option.bind_some, cell]
  split
  · rename_i early
    rw [less?_of_early starts early, Option.bind_some]
  · rfl

/-- The shares of a destination are its own, and their sources lie on the source axis. -/
theorem mem_cell (positive : 0 < sourceSize) {share : Share S}
    (member : share ∈ cell D sourceSize targetSize d) :
    share.destination = d ∧ share.source < sourceSize := by
  -- The head, the body and the tail each have their own bounds on the sample.
  simp only [cell, List.append_assoc, List.mem_append, List.mem_map, List.mem_range'_1] at member
  rcases member with head | ⟨sample, range, rfl⟩ | tail
  · split at head
    · rw [List.mem_singleton.mp head]
      exact ⟨rfl, by dsimp only; omega⟩
    · simp at head
  · exact ⟨rfl, by dsimp only; omega⟩
  · split at tail
    · rw [List.mem_singleton.mp tail]
      exact ⟨rfl, by dsimp only; omega⟩
    · simp at tail

/-- The shares of all destinations of a source axis that has samples. -/
def table (D : Type) {S : Type} [Scalar S] [Wide D S] (sourceSize targetSize : Nat) :
    List (Share S) :=
  (List.range targetSize).flatMap (cell D sourceSize targetSize)

/-- The table of shares of a source axis that has samples can be computed. -/
theorem table?_eq_table (starts : StartsInside D) (positive : 0 < sourceSize) :
    table? D sourceSize targetSize = some (table D sourceSize targetSize) := by
  -- Every cell is computed, so the table is all of them in a row.
  rw [table?, gather?_of_forall fun d _ => cell?_eq_cell starts positive, table, List.flatMap]
  rfl

/-- Entries belong to destinations of the target axis, and their sources to the source axis. -/
theorem mem_table (positive : 0 < sourceSize) {share : Share S}
    (member : share ∈ table D sourceSize targetSize) :
    share.destination < targetSize ∧ share.source < sourceSize := by
  -- An entry of the table is one of the cell of its destination.
  obtain ⟨d, range, held⟩ := List.mem_flatMap.mp member
  obtain ⟨same, inside⟩ := mem_cell positive held
  exact ⟨same ▸ List.mem_range.mp range, inside⟩

/-- The table lists its destinations in ascending order. -/
theorem table_ascending (positive : 0 < sourceSize) :
    Ascending (table D sourceSize targetSize) := by
  refine List.pairwise_flatMap.mpr ⟨fun d _ => ?_, ?_⟩
  -- Within a cell the destination stays the same; from cell to cell it goes up.
  · refine List.pairwise_of_forall_mem_list fun first firstIn second secondIn => ?_
    rw [(mem_cell positive firstIn).1, (mem_cell positive secondIn).1]
  · refine List.pairwise_lt_range.imp fun less first firstIn second secondIn => ?_
    rw [(mem_cell positive firstIn).1, (mem_cell positive secondIn).1]
    exact Nat.le_of_lt less

/-- The entries of one destination in a cell are all of it or none. -/
theorem filter_cell (positive : 0 < sourceSize) (e d : Nat) :
    (cell D sourceSize targetSize e).filter (fun share => share.destination = d) =
      if e = d then cell D sourceSize targetSize d else [] := by
  -- All entries of a cell have its destination.
  split
  · rename_i same
    rw [same]
    exact List.filter_eq_self.mpr fun share member => by simpa using (mem_cell positive member).1
  · rename_i different
    exact List.filter_eq_nil_iff.mpr fun share member same =>
      different ((mem_cell positive member).1.symm.trans (by simpa using same))

/-- The entries of one destination are its cell. -/
theorem filter_table (positive : 0 < sourceSize) (inside : d < targetSize) :
    (table D sourceSize targetSize).filter (fun share => share.destination = d) =
      cell D sourceSize targetSize d := by
  rw [table, List.filter_flatMap]
  -- Every other cell is left out whole.
  simp only [filter_cell positive]
  rw [flatMap_range_ite, if_pos inside]

end Share

namespace Overlaps

variable {image : Grid α channels} {sample : Nat → Nat → Nat → α}

/-- The sum of one row's samples over the shares of a column cell. -/
def decimated (sample : Nat → α) (cell : List (Share S)) : S :=
  weighted (cell.map fun share => (Element.toSingle (sample share.source), share.weight))

/-- The sample that a row cell and a column cell give for one channel of an image. -/
def value (sample : Nat → Nat → α) (rows columns : List (Share S)) : α :=
  Element.ofSingle (weighted (rows.map fun share =>
    (decimated (sample share.source) columns, share.weight)))

omit [Wide D S] in
/-- Decimating the rows of an image by shares that lie inside it never faults. -/
theorem exists_decimateRows? (shows : image.Shows sample) (shares : List (Share S)) (width : Nat)
    (inside : ∀ share ∈ shares, share.source < image.width) :
    ∃ rows, decimateRows? image shares width = some rows ∧ rows.height = image.height ∧
      rows.width = width ∧ rows.Shows fun y x c => decimated (fun column => sample y column c)
        (shares.filter fun share => share.destination = x) := by
  -- The shares of a destination are the entries that name it, and all of them read samples.
  dsimp only [decimateRows?]
  refine Grid.exists_tabulate?_shows fun y x c inImage inRow inPixel => ?_
  have terms : gather? (fun share : Share S => (image.at? y share.source c).map fun value =>
        (Element.toSingle value, share.weight))
      (shares.filter fun share => share.destination = x) = some
        ((shares.filter fun share => share.destination = x).map fun share =>
          (Element.toSingle (sample y share.source c), share.weight)) :=
    gather?_of_forall fun share member => by
      rw [shows y share.source c inImage (inside share (List.mem_filter.mp member).1) inPixel,
        Option.map_some]
  simp only [List.getElem?_toArray, List.getElem?_map, List.getElem?_range inRow,
    Option.map_some, Option.bind_eq_bind, Option.bind_some, terms, decimated]

/-- Averaging by overlap never faults and combines the cells of each pixel on either axis. -/
theorem exists_resize? (starts : Share.StartsInside D) (shows : image.Shows sample)
    (tall : 0 < image.height) (wide : 0 < image.width) (target : Extent) :
    ∃ resized, resize? image target = some resized ∧
      resized.height = target.height ∧ resized.width = target.width ∧
      resized.Shows fun y x c => value (fun row column => sample row column c)
        (Share.cell D image.height target.height y) (Share.cell D image.width target.width x) := by
  -- The spans of the row table give back its cells, and the column table is filtered for them.
  have ordered : Share.Ascending (Share.table D image.height target.height) :=
    Share.table_ascending tall
  obtain ⟨spans, collected, reads⟩ := Share.exists_spans? ordered
    fun share member => (Share.mem_table tall member).1
  obtain ⟨rows, decimated, height, width, rowShows⟩ := exists_decimateRows? shows
    (Share.table D image.width target.width) target.width
    fun share member => (Share.mem_table wide member).2
  simp only [resize?, Share.table?_eq_table starts wide, Share.table?_eq_table starts tall,
    collected, decimated, Option.bind_eq_bind, Option.bind_some]
  refine Grid.exists_tabulate?_shows fun y x c inImage inRow inPixel => ?_
  -- The span of a row is the cell of its destination, and the rows it names are decimated.
  obtain ⟨span, found, entries⟩ := reads y inImage
  rw [Share.filter_table tall inImage] at entries
  have terms : gather? (fun share : Share S =>
      (rows.at? share.source x c).map fun value => (value, share.weight))
        (Share.cell D image.height target.height y) = some
        ((Share.cell D image.height target.height y).map fun share =>
          (Overlaps.decimated (fun column => sample share.source column c)
            (Share.cell D image.width target.width x), share.weight)) :=
    gather?_of_forall fun share member => by
      have inRows := (Share.mem_cell tall member).2
      have columns := Share.filter_table (D := D) wide inRow
      rw [rowShows share.source x c (by omega) (by omega) inPixel, Option.map_some, ← columns]
  simp only [found, entries, terms, Option.bind_some, value]

end Overlaps

end Raster.Area
