import Raster.Refusal
import Raster.Word

/-!
Where the rows of an image lie in a buffer, and when a buffer is long enough to hold them.  Main
statement: `check_eq_ok_iff`, a layout is accepted exactly when every visible sample is in range.
-/

namespace Raster

/-- Rows of `width` pixels that start `stride` samples apart. -/
structure Layout where
  height : Nat
  width : Nat
  stride : Nat
  deriving DecidableEq, Repr

namespace Layout

/-- The layout whose rows follow each other without gaps. -/
def packed (channels height width : Nat) : Layout :=
  ⟨height, width, saturate (width * channels)⟩

/-- The layout with the given stride, packed when there is none. -/
def ofStride (channels height width : Nat) (stride : Option Nat) : Layout :=
  match stride with
  -- Without a stride the rows follow one another.
  | none => packed channels height width
  | some stride => ⟨height, width, stride⟩

/-- Height and width. -/
def extent (layout : Layout) : Extent := ⟨layout.height, layout.width⟩

/-- Visible samples of a row. -/
def rowLength (layout : Layout) (channels : Nat) : Nat := layout.width * channels

/-- Where row `y` starts. -/
def rowStart (layout : Layout) (y : Nat) : Nat := y * layout.stride

/-- Where pixel `x` of row `y` starts. -/
def pixelStart (layout : Layout) (channels y x : Nat) : Nat :=
  layout.rowStart y + x * channels

/-- The least length of a buffer that holds the last row; that row needs no padding. -/
def required (layout : Layout) (channels : Nat) : Nat :=
  (layout.height - 1) * layout.stride + layout.rowLength channels

/-- A buffer of `length` samples holds the layout. -/
structure Fits (layout : Layout) (channels length : Nat) : Prop where
  height_pos : 0 < layout.height
  width_pos : 0 < layout.width
  -- The length of a row is formed as a word before anything is compared with it.
  rowLength_lt : layout.rowLength channels < wordLimit
  rowLength_le : layout.rowLength channels ≤ layout.stride
  length_pos : 0 < length
  required_le : layout.required channels ≤ length

/-- Refuses a layout for a buffer, for the first condition that it violates. -/
def check (layout : Layout) (channels length : Nat) : Except Refusal Unit :=
  if layout.height = 0 ∨ layout.width = 0 then .error (.emptyImage layout.extent)
  -- A row longer than any word is reported as an impossible extent.
  else if wordLimit ≤ layout.rowLength channels then .error (.emptyImage layout.extent)
  else if layout.stride < layout.rowLength channels then
    .error (.shortStride layout.stride (layout.rowLength channels))
  else if length = 0 then .error .noBuffer
  else if length < layout.required channels then
    .error (.shortBuffer (saturate (layout.required channels)) length)
  else .ok ()

/-- A layout is accepted exactly when the buffer holds it. -/
theorem check_eq_ok_iff {layout : Layout} {channels length : Nat} :
    layout.check channels length = .ok () ↔ layout.Fits channels length := by
  -- Each refused condition is the negation of one requirement.
  unfold check
  constructor
  · intro accepted
    split at accepted <;> try contradiction
    split at accepted <;> try contradiction
    split at accepted <;> try contradiction
    split at accepted <;> try contradiction
    split at accepted <;> try contradiction
    exact ⟨by omega, by omega, by omega, by omega, by omega, by omega⟩
  · intro fits
    have := fits.height_pos
    have := fits.width_pos
    have := fits.rowLength_lt
    have := fits.rowLength_le
    have := fits.length_pos
    have := fits.required_le
    rw [if_neg (by omega), if_neg (by omega), if_neg (by omega), if_neg (by omega),
      if_neg (by omega)]

/-- Every row of a layout lies in a buffer that holds it. -/
theorem Fits.row_le {layout : Layout} {channels length y : Nat}
    (fits : layout.Fits channels length) (inImage : y < layout.height) :
    layout.rowStart y + layout.rowLength channels ≤ length := by
  -- No row starts after the last one, and the last one ends inside the buffer.
  have rows : y * layout.stride ≤ (layout.height - 1) * layout.stride :=
    Nat.mul_le_mul_right _ (by omega)
  have whole := fits.required_le
  simp only [required] at whole
  simp only [rowStart]
  omega

/-- Every visible sample of a layout lies in a buffer that holds it. -/
theorem Fits.place_lt {layout : Layout} {channels length y k : Nat}
    (fits : layout.Fits channels length) (inImage : y < layout.height)
    (inRow : k < layout.rowLength channels) : layout.rowStart y + k < length := by
  -- The last place of the row is inside, so every place of it is.
  have row := fits.row_le inImage
  omega

/-- Rows do not overlap: a place in the buffer is at most one visible sample. -/
theorem Fits.place_inj {layout : Layout} {channels length y z j k : Nat}
    (fits : layout.Fits channels length) (first : j < layout.rowLength channels)
    (second : k < layout.rowLength channels)
    (same : layout.rowStart y + j = layout.rowStart z + k) : y = z ∧ j = k := by
  -- Both offsets are shorter than the stride, so they are the remainders by it.
  have short := fits.rowLength_le
  simp only [rowStart] at same
  have quotient : (y * layout.stride + j) / layout.stride =
      (z * layout.stride + k) / layout.stride := by rw [same]
  rw [Nat.mul_comm y, Nat.mul_comm z, Nat.mul_add_div (by omega), Nat.mul_add_div (by omega),
    Nat.div_eq_of_lt (by omega), Nat.div_eq_of_lt (by omega)] at quotient
  have rows : y = z := by omega
  subst rows
  exact ⟨rfl, by omega⟩

end Layout

end Raster
