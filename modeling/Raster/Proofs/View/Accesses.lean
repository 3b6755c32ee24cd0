import Mathlib.Algebra.Group.Nat.Defs
import Mathlib.Order.Interval.Set.Basic
import Raster.View.Word

/-!
What the accesses to a view reach.  Main statement: `accesses_exact`, rows and pixels are the
samples at their places in whole numbers or faults, and after any writes to rows every place holds
what was last written to it, or what it held before.
-/

namespace Raster

/-- A write of values over a row. -/
structure RowWrite (α : Type) where
  row : Nat
  values : List α

namespace RowWrite

variable {α : Type}

/-- The value that a write gives to place `k` of row `y`, if it gives one. -/
def valueAt (write : RowWrite α) (y k : Nat) : Option α :=
  if write.row = y then write.values[k]? else none

/-- The value that the last of several writes to place `k` of row `y` gave it, if one did. -/
def lastAt : List (RowWrite α) → Nat → Nat → Option α
  | [], _, _ => none
  | write :: later, y, k => (lastAt later y k).or (write.valueAt y k)

end RowWrite

namespace View

variable {α : Type} {channels : Nat} {view : View α channels}

/-- Performs writes to rows one after another. -/
def writeRows? (view : View α channels) (writes : List (RowWrite α)) : Option (View α channels) :=
  writes.foldlM (fun written write => written.setRowWord? write.row write.values) view

/-- The places of row `y` in the buffer. -/
def rowPlaces (view : View α channels) (y : Nat) : Set Nat :=
  Set.Ico (view.layout.rowStart y) (view.layout.rowStart y + view.layout.rowLength channels)

/-- The buffer reaches to the end of row `y`, whether or not the row belongs to the image. -/
def Reaches (view : View α channels) (y : Nat) : Prop :=
  view.layout.rowStart y + view.layout.rowLength channels ≤ view.data.size

/-- A place of one row is a place of no other. -/
theorem place_mem_rowPlaces_iff {y z k : Nat} (inRow : k < view.layout.rowLength channels) :
    view.layout.rowStart y + k ∈ view.rowPlaces z ↔ z = y := by
  -- Rows do not overlap, so a place of one row is a place of no other.
  constructor
  · rintro ⟨low, high⟩
    obtain ⟨j, same⟩ := Nat.exists_eq_add_of_le low
    exact (view.fits.place_inj (by omega) inRow same.symm).1
  · rintro rfl
    exact ⟨Nat.le_add_right _ _, Nat.add_lt_add_left inRow _⟩

/-- After a write every place of the row holds its new value or, where the values do not reach, its
own; every other place holds its own. -/
theorem getElem?_of_setRow? {written : View α channels} {y : Nat} {values : List α}
    (set : view.setRow? y values = some written) (i : Nat) :
    written.data[i]? =
      if view.layout.rowStart y ≤ i ∧ i < view.layout.rowStart y + view.layout.rowLength channels
      then values[i - view.layout.rowStart y]?.or view.data[i]? else view.data[i]? := by
  simp only [setRow?] at set
  split at set
  · obtain rfl := Option.some.inj set
    rw [Array.getElem?_mapIdx]
    split
    · -- The row ends inside the buffer, so the place holds something.
      have inside : i < view.data.size := by omega
      rw [Array.getElem?_eq_getElem inside, Option.map_some, Array.getD_eq_getD_getElem?,
        List.getElem?_toArray]
      cases values[i - view.layout.rowStart y]? <;> rfl
    · exact Option.map_id'
  · contradiction

/-- Writing over a row that the buffer reaches gives values to places of the row alone. -/
theorem exists_setRowWord? (word : view.data.size < wordLimit) (write : RowWrite α)
    (held : view.Reaches write.row) :
    ∃ written, view.setRowWord? write.row write.values = some written ∧
      written.layout = view.layout ∧ written.data.size = view.data.size ∧
      (∀ y k, k < view.layout.rowLength channels →
        written.data[view.layout.rowStart y + k]? =
          (write.valueAt y k).or view.data[view.layout.rowStart y + k]?) ∧
      ∀ i, i ∉ view.rowPlaces write.row → written.data[i]? = view.data[i]? := by
  obtain ⟨written, set, layout, size, -⟩ := view.exists_setRow? write.values held
  have places := getElem?_of_setRow? set
  refine ⟨written, by rw [setRowWord?_eq_setRow? view word, set], layout, size, ?_, ?_⟩
  · intro y k inRow
    rw [places, RowWrite.valueAt]
    by_cases same : write.row = y
    · subst same
      rw [if_pos ⟨Nat.le_add_right _ _, Nat.add_lt_add_left inRow _⟩, if_pos rfl,
        Nat.add_sub_cancel_left]
    · -- A place of another row lies apart from the row that is written.
      have apart := mt (place_mem_rowPlaces_iff inRow).mp same
      rw [if_neg same, Option.none_or]
      exact if_neg apart
  · intro i apart
    rw [places]
    exact if_neg apart

/-- After any writes to rows that the buffer reaches, every place of a row holds what was last
written to it or, where nothing was, what it held before. -/
theorem exists_writeRows? (word : view.data.size < wordLimit) {writes : List (RowWrite α)}
    (held : ∀ write ∈ writes, view.Reaches write.row) :
    ∃ written, view.writeRows? writes = some written ∧
      written.layout = view.layout ∧ written.data.size = view.data.size ∧
      (∀ y k, k < view.layout.rowLength channels →
        written.data[view.layout.rowStart y + k]? =
          (RowWrite.lastAt writes y k).or view.data[view.layout.rowStart y + k]?) ∧
      ∀ i, (∀ write ∈ writes, i ∉ view.rowPlaces write.row) →
        written.data[i]? = view.data[i]? := by
  -- The first write is performed on the view, and the others on what it leaves.
  induction writes generalizing view with
  | nil => exact ⟨view, rfl, rfl, rfl, fun _ _ _ => rfl, fun _ _ => rfl⟩
  | cons write later ih =>
    obtain ⟨first, set, sameLayout, sameSize, row, others⟩ :=
      exists_setRowWord? word write (held write List.mem_cons_self)
    have laterHeld : ∀ next ∈ later, first.Reaches next.row := by
      intro next member
      rw [Reaches, sameLayout, sameSize]
      exact held next (List.mem_cons_of_mem _ member)
    obtain ⟨written, run, layout, size, rows, rest⟩ :=
      ih (by rw [sameSize]; exact word) laterHeld
    rw [sameLayout] at layout rows
    refine ⟨written, ?_, layout, by rw [size, sameSize], ?_, ?_⟩
    · rw [writeRows?, List.foldlM_cons, set]
      exact run
    · intro y k inRow
      -- A later write to the place hides the first one, which hides what was there before.
      rw [rows y k inRow, row y k inRow, RowWrite.lastAt, Option.or_assoc]
    · intro i apart
      rw [rest i ?_, others i (apart write List.mem_cons_self)]
      intro next member
      rw [rowPlaces, sameLayout]
      exact apart next (List.mem_cons_of_mem _ member)

/-- A pixel of a row that can be sliced is a chunk of the slice. -/
theorem pixel?_of_row? {y x : Nat} {row : Array α} (inRow : x < view.layout.width)
    (sliced : view.row? y = some row) :
    view.pixel? y x = some (row.extract (x * channels) (x * channels + channels)) := by
  obtain ⟨held, rfl⟩ := slice?_eq_some_iff.mp sliced
  -- The pixel ends with the row at the latest, and so inside the buffer.
  have pixels := Nat.mul_le_mul_right channels (Nat.succ_le_of_lt inRow)
  rw [Nat.succ_mul] at pixels
  have place : x * channels + channels ≤ view.layout.rowLength channels := pixels
  refine slice?_eq_some_iff.mpr ⟨by rw [Layout.pixelStart]; omega, ?_⟩
  rw [Array.extract_extract, Layout.pixelStart]
  congr 1
  omega

/-- A row that the buffer reaches is sliced whole. -/
theorem exists_row?_of_reaches {y : Nat} (held : view.Reaches y) :
    ∃ row, view.row? y = some row ∧ row.size = view.layout.rowLength channels ∧
      ∀ k, k < view.layout.rowLength channels →
        row[k]? = view.data[view.layout.rowStart y + k]? := by
  -- What the row reaches is inside the buffer, whether or not the row is visible.
  unfold Reaches at held
  refine ⟨_, slice?_eq_some_iff.mpr ⟨held, rfl⟩, ?_, fun k inRow => ?_⟩
  · rw [Array.size_extract]
    omega
  · rw [Array.getElem?_extract, if_pos (by omega)]

/-- Accesses formed in words reach what whole numbers say, or fault.  A row and a pixel are the
samples at their places wherever the buffer holds all of them, in the image or behind it, and a
pixel of a row is a chunk of the row.  After any writes to rows that the buffer holds, those of the
image among them, a place of a row reads back the last value written to it or, where none was, its
own; and every place outside the written rows keeps what it held. -/
theorem accesses_exact (view : View α channels) (word : view.data.size < wordLimit) :
    let stride := view.layout.stride
    let length := view.layout.width * channels
    (∀ y x values, view.rowWord? y = view.row? y ∧ view.pixelWord? y x = view.pixel? y x ∧
      view.setRowWord? y values = view.setRow? y values) ∧
    (∀ y, view.rowWord? y =
      if y * stride + length ≤ view.data.size then
        some (view.data.extract (y * stride) (y * stride + length))
      else none) ∧
    (∀ y x, view.pixelWord? y x =
      if y * stride + x * channels + channels ≤ view.data.size then
        some (view.data.extract (y * stride + x * channels)
          (y * stride + x * channels + channels))
      else none) ∧
    (∀ y x row, x < view.layout.width → view.rowWord? y = some row →
      view.pixelWord? y x = some (row.extract (x * channels) (x * channels + channels))) ∧
    (∀ y, y < view.layout.height → y * stride + length ≤ view.data.size) ∧
    ∀ writes : List (RowWrite α),
      (∀ write ∈ writes, write.row * stride + length ≤ view.data.size) →
      ∃ written, view.writeRows? writes = some written ∧ written.layout = view.layout ∧
        written.data.size = view.data.size ∧
        (∀ y, y * stride + length ≤ view.data.size →
          ∃ row, written.rowWord? y = some row ∧ row.size = length ∧
            ∀ k, k < length →
              row[k]? = (RowWrite.lastAt writes y k).or view.data[y * stride + k]?) ∧
        ∀ i, (∀ write ∈ writes, i ∉ Set.Ico (write.row * stride) (write.row * stride + length)) →
          written.data[i]? = view.data[i]? := by
  intro stride length
  refine ⟨fun y x values => ⟨view.rowWord?_eq_row? word y, view.pixelWord?_eq_pixel? word y x,
    view.setRowWord?_eq_setRow? word y values⟩, view.rowWord?_eq_row? word,
    view.pixelWord?_eq_pixel? word, ?_, fun y => view.fits.row_le, ?_⟩
  · intro y x row inRow sliced
    rw [view.pixelWord?_eq_pixel? word]
    exact pixel?_of_row? inRow (view.rowWord?_eq_row? word y ▸ sliced)
  · intro writes held
    obtain ⟨written, run, layout, size, rows, others⟩ := exists_writeRows? word held
    refine ⟨written, run, layout, size, fun y reached => ?_, others⟩
    -- The written view has the layout and the length of the first one, so it reaches as far.
    have whole : written.Reaches y := by
      rw [Reaches, layout, size]
      exact reached
    obtain ⟨row, sliced, rowSize, entries⟩ := exists_row?_of_reaches whole
    rw [layout] at rowSize entries
    refine ⟨row, ?_, rowSize, fun k inRow => (entries k inRow).trans (rows y k inRow)⟩
    rw [written.rowWord?_eq_row? (by rw [size]; exact word), sliced]

/-- Two rows of two pixels, with two samples between them. -/
def paddedRows : View UInt8 3 :=
  ⟨⟨2, 2, 8⟩, #[1, 2, 3, 4, 5, 6, 0, 0, 7, 8, 9, 10, 11, 12], Layout.check_eq_ok_iff.mp rfl⟩

/-- A row whose start would wrap around to the first one is a fault, and the second of two writes to
a row hides what it reaches of the first one. -/
theorem accesses_paddedRows :
    paddedRows.data.size < wordLimit ∧ paddedRows.rowWord? (2 ^ 61) = none ∧
      ∃ written row, paddedRows.writeRows? [⟨1, [20, 21, 22, 23, 24, 25]⟩, ⟨1, [30]⟩] =
          some written ∧
        written.rowWord? 1 = some row ∧ row[0]? = some 30 ∧ row[1]? = some 21 ∧
        written.data[0]? = some 1 := by
  -- The second write stops after its only value, so the first one shows behind it.
  obtain ⟨-, rows, -, -, -, writes⟩ := accesses_exact paddedRows (by decide)
  obtain ⟨written, run, -, -, readBack, others⟩ :=
    writes [⟨1, [20, 21, 22, 23, 24, 25]⟩, ⟨1, [30]⟩] (by decide)
  obtain ⟨row, sliced, -, places⟩ := readBack 1 (by decide)
  exact ⟨by decide, (rows (2 ^ 61)).trans (if_neg (by decide)), written, row, run, sliced,
    places 0 (by decide), places 1 (by decide),
    others 0 (by simp [paddedRows])⟩

end View

end Raster
