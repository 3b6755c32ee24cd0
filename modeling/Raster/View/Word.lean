import Raster.View.Lemmas
import Raster.Word

/-!
Accesses to views in words: every product and sum on the way to a row or a pixel is checked, and one
that is no word is a fault.  Main statements: `rowWord?_eq_row?` and `pixelWord?_eq_pixel?`, over a
buffer whose length is a word these are the accesses in whole numbers.
-/

namespace Raster

variable {α β : Type}

/-- A step that needs a word does not show where its end is a fault beyond the words anyway. -/
theorem Word.ofNat?_bind_eq {number : Nat} {rest : Nat → Option β} {value : Option β}
    (same : rest number = value) (beyond : wordLimit ≤ number → value = none) :
    (Word.ofNat? number).bind rest = value := by
  unfold Word.ofNat?
  -- Either the number is a word, or the value is already nothing.
  by_cases word : number < wordLimit
  · rw [if_pos word, Option.bind_some, same]
  · rw [if_neg word, Option.bind_none, beyond (Nat.not_lt.mp word)]

/-- The `count` elements from `start`, where they end at a word that is inside the buffer. -/
def sliceWord? (data : Array α) (start count : Nat) : Option (Array α) := do
  let stop ← Word.sum? start count
  if stop ≤ data.size then some (data.extract start stop) else none

/-- Elements that start or end behind the buffer cannot be sliced. -/
theorem slice?_eq_none {data : Array α} {start count : Nat} (behind : data.size < start + count) :
    slice? data start count = none :=
  if_neg (Nat.not_le.mpr behind)

/-- In a buffer whose length is a word, slices are found in words as in whole numbers. -/
theorem sliceWord?_eq_slice? {data : Array α} (word : data.size < wordLimit) (start count : Nat) :
    sliceWord? data start count = slice? data start count :=
  -- An end that is no word is behind the buffer.
  Word.ofNat?_bind_eq rfl fun beyond => slice?_eq_none (by omega)

namespace View

variable {channels : Nat}

/-- The visible samples of row `y`, whose start, length and end are formed in words. -/
def rowWord? (view : View α channels) (y : Nat) : Option (Array α) := do
  -- The end is formed by the slice, and must be a word, too.
  let start ← Word.product? y view.layout.stride
  let length ← Word.product? view.layout.width channels
  sliceWord? view.data start length

/-- The samples of pixel `x` of row `y`, whose start and end are formed in words. -/
def pixelWord? (view : View α channels) (y x : Nat) : Option (Array α) := do
  let row ← Word.product? y view.layout.stride
  let place ← Word.product? x channels
  -- Each product and the sum of both must be a word.
  let start ← Word.sum? row place
  sliceWord? view.data start channels

/-- Writes values over row `y` as far as both reach; what is written is what would be read. -/
def setRowWord? (view : View α channels) (y : Nat) (values : List α) :
    Option (View α channels) := do
  -- The row is addressed as for reading before it is replaced.
  let _ ← view.rowWord? y
  view.setRow? y values

/-- Rows are found in words as in whole numbers. -/
theorem rowWord?_eq_row? (view : View α channels) (word : view.data.size < wordLimit) (y : Nat) :
    view.rowWord? y = view.row? y := by
  unfold row? Layout.rowStart Layout.rowLength
  -- A start or a length that is no word leaves no room for the row in the buffer.
  refine Word.ofNat?_bind_eq ?_ fun beyond => slice?_eq_none (by omega)
  refine Word.ofNat?_bind_eq ?_ fun beyond => slice?_eq_none (by omega)
  exact sliceWord?_eq_slice? word _ _

/-- Pixels are found in words as in whole numbers. -/
theorem pixelWord?_eq_pixel? (view : View α channels) (word : view.data.size < wordLimit)
    (y x : Nat) : view.pixelWord? y x = view.pixel? y x := by
  unfold pixel? Layout.pixelStart Layout.rowStart
  -- The start of the row and the place in it are no greater than the start of the pixel.
  refine Word.ofNat?_bind_eq ?_ fun beyond => slice?_eq_none (by omega)
  refine Word.ofNat?_bind_eq ?_ fun beyond => slice?_eq_none (by omega)
  refine Word.ofNat?_bind_eq ?_ fun beyond => slice?_eq_none (by omega)
  exact sliceWord?_eq_slice? word _ _

/-- Rows are written in words as in whole numbers. -/
theorem setRowWord?_eq_setRow? (view : View α channels) (word : view.data.size < wordLimit)
    (y : Nat) (values : List α) : view.setRowWord? y values = view.setRow? y values := by
  unfold setRowWord?
  rw [rowWord?_eq_row? view word, row?, slice?, setRow?]
  -- A row can be written exactly where it can be sliced.
  split
  · rfl
  · rfl

end View

end Raster
