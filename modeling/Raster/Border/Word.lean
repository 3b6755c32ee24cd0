import Raster.Border
import Raster.Gather
import Raster.Word

/-!
Folding in words: lengths and coordinates are words read as signed numbers, and what leaves their
range is a fault.  Main statement: `foldWord?_eq_fold`, on every axis whose doubled length is a
signed word this is the folding of whole numbers.
-/

namespace Raster.Border

/-- Whether folding forms only signed words on an axis whose length reads as `axis`. -/
def isFoldable (border : Border) (axis coordinate : Int) : Bool :=
  match border with
  -- The nearest sample is sought between the first and the last, which an empty axis lacks.
  | .replicate => 0 < axis
  | .reflect | .reflect101 | .standard =>
    axis ≠ 0 ∧ Word.isSigned (2 * axis) ∧ Word.isSigned (border.place axis coordinate)

/-- The word that stands for a coordinate on an axis whose length is a word. -/
def foldWord? (border : Border) (length : Nat) (coordinate : Int) : Option Nat :=
  let axis := Word.signed length
  -- A coordinate on the axis needs no period.
  if (0 ≤ coordinate ∧ coordinate < axis) ∨ border.isFoldable axis coordinate then
    some (Word.unsigned (border.place axis coordinate))
  else none

/-- The words that stand for consecutive coordinates; a count that reads as negative gives none. -/
def tableWord? (border : Border) (start : Int) (count length : Nat) : Option (List Nat) :=
  gather? (fun (offset : Nat) =>
      if Word.isSigned (start + offset) then border.foldWord? length (start + offset) else none)
    (List.range (Word.signed count).toNat)

/-- On an axis that has samples and whose doubled length is a signed word, words fold as numbers. -/
theorem foldWord?_eq_fold (border : Border) {length : Nat} (positive : 0 < length)
    (small : 2 * (length : Int) < Word.signedLimit) (coordinate : Int) :
    border.foldWord? length coordinate = some (border.fold length coordinate) := by
  -- The length reads as itself, so the folded coordinate is a sample of the axis.
  have axis : Word.signed length = length := Word.signed_of_lt (by omega)
  obtain ⟨low, high⟩ := border.place_bounds (show (0 : Int) < length by omega) coordinate
  have limit : Word.signedLimit = 0x8000000000000000 := rfl
  have foldable : border.isFoldable length coordinate = true := by
    cases border <;> simp only [isFoldable, Word.isSigned, decide_eq_true_eq, Bool.decide_and] <;>
      simp <;> omega
  have kept : Word.unsigned (border.place length coordinate) = border.fold length coordinate := by
    have whole : wordLimit = 0x10000000000000000 := rfl
    have inside := border.fold_lt positive coordinate
    have place : border.place length coordinate = (border.fold length coordinate : Nat) :=
      (Int.toNat_of_nonneg low).symm
    rw [place, Word.unsigned_natCast (by omega)]
  unfold foldWord?
  rw [axis, if_pos (Or.inr foldable), kept]

/-- On such an axis a table lists the folds of its coordinates, if its count reads as itself and its
coordinates are signed words. -/
theorem tableWord?_eq_table (border : Border) {length : Nat} (positive : 0 < length)
    (small : 2 * (length : Int) < Word.signedLimit) {start : Int} {count : Nat}
    (few : (count : Int) < Word.signedLimit)
    (reached : ∀ offset : Nat, offset < count → Word.isSigned (start + offset)) :
    border.tableWord? start count length = some (border.table start count length) := by
  unfold tableWord?
  rw [Word.signed_of_lt few, Int.toNat_natCast]
  refine gather?_of_forall fun offset member => ?_
  rw [if_pos (reached offset (List.mem_range.mp member)), border.foldWord?_eq_fold positive small]

/-- A count that reads as a negative number gives an empty table. -/
theorem tableWord?_of_signedLimit_le (border : Border) {count : Nat}
    (many : Word.signedLimit ≤ (count : Int)) (word : count < wordLimit) (start : Int)
    (length : Nat) : border.tableWord? start count length = some [] := by
  unfold tableWord? Word.signed
  -- Read as a signed number the count is negative, and there are no entries.
  rw [if_neg (by omega), Int.toNat_of_nonpos (by omega)]
  rfl

end Raster.Border
