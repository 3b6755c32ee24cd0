import Raster.Resize.Nearest

/-!
Scaling positions in words.  Main statements: `source_eq_iff`, a destination finds its scaled
position exactly when the product with the source size is a word, and `tableWord?_eq`, where
overflow is a fault an axis has its table exactly when its last product is a word.
-/

namespace Raster.Nearest

/-- The source index of destination `d`, a fault if its product with the source size is no word. -/
def sourceWord? (sourceSize targetSize d : Nat) : Option Nat :=
  (Word.product? d sourceSize).map (· / targetSize)

/-- The source indices of a whole axis, a fault if one of them is. -/
def tableWord? (sourceSize targetSize : Nat) : Option (Array Nat) :=
  (gather? (sourceWord? sourceSize targetSize) (List.range targetSize)).map List.toArray

variable {sourceSize targetSize d : Nat}

/-- A product that is a word is scaled as a whole number. -/
theorem source_eq_of_lt (word : d * sourceSize < wordLimit) :
    source sourceSize targetSize d = d * sourceSize / targetSize := by
  rw [source, Word.wrap_of_lt word]

/-- Losing digits takes no destination beyond its scaled position. -/
theorem source_le (sourceSize targetSize d : Nat) :
    source sourceSize targetSize d ≤ d * sourceSize / targetSize :=
  Nat.div_le_div_right (Word.wrap_le _)

/-- A product that is no word takes its destination before its scaled position, since a target has
no more destinations than there are words. -/
theorem source_lt_of_le (positive : 0 < targetSize) (words : targetSize ≤ wordLimit)
    (beyond : wordLimit ≤ d * sourceSize) :
    source sourceSize targetSize d < d * sourceSize / targetSize := by
  -- What is lost is at least the limit, so it makes up at least one source sample.
  have limit : 0 < wordLimit := by decide
  have short : Word.wrap (d * sourceSize) < wordLimit := Nat.mod_lt _ limit
  have lost : Word.wrap (d * sourceSize) + targetSize ≤ d * sourceSize := by
    have digits := Nat.div_add_mod (d * sourceSize) wordLimit
    have whole := Nat.mul_le_mul_left wordLimit (Nat.div_pos beyond limit)
    rw [Word.wrap]
    omega
  have later := Nat.div_le_div_right (c := targetSize) lost
  rw [Nat.add_div_right _ positive] at later
  exact later

/-- Words find the scaled position of a destination exactly when its product is one of them. -/
theorem source_eq_iff (positive : 0 < targetSize) (words : targetSize ≤ wordLimit) :
    source sourceSize targetSize d = d * sourceSize / targetSize ↔ d * sourceSize < wordLimit := by
  -- A product that wraps loses more than the divisor can hide.
  refine ⟨fun same => Nat.lt_of_not_le fun beyond => ?_, source_eq_of_lt⟩
  exact Nat.ne_of_lt (source_lt_of_le positive words beyond) same

/-- Where overflow is a fault a destination has a source exactly when its product is a word. -/
theorem sourceWord?_eq (d : Nat) :
    sourceWord? sourceSize targetSize d =
      if d * sourceSize < wordLimit then some (source sourceSize targetSize d) else none := by
  unfold sourceWord? Word.product? Word.ofNat?
  split
  · -- A product that is a word has not wrapped.
    rw [source_eq_of_lt ‹_›]
    rfl
  · rfl

/-- The products of an axis are words exactly when that of its last destination is; the sizes of two
axes are not bounded by each other, so longer axes have no table where overflow is a fault. -/
theorem tableWord?_eq (sourceSize targetSize : Nat) :
    tableWord? sourceSize targetSize =
      if (targetSize - 1) * sourceSize < wordLimit then some (table sourceSize targetSize)
      else none := by
  rw [tableWord?]
  split
  · -- No destination comes after the last one.
    have found : ∀ d ∈ List.range targetSize, sourceWord? sourceSize targetSize d =
        some (source sourceSize targetSize d) := by
      intro d member
      have earlier : d * sourceSize ≤ (targetSize - 1) * sourceSize :=
        Nat.mul_le_mul_right _ (by have := List.mem_range.mp member; omega)
      rw [sourceWord?_eq, if_pos (by omega)]
    rw [gather?_of_forall found]
    rfl
  · rename_i beyond
    -- An axis without destinations has no product, and every other one forms that of its last.
    have last : targetSize - 1 < targetSize := by
      refine Nat.sub_one_lt ?_
      rintro rfl
      rw [Nat.zero_sub, Nat.zero_mul] at beyond
      exact beyond (by decide)
    have fault : gather? (sourceWord? sourceSize targetSize) (List.range targetSize) = none :=
      gather?_eq_none_iff.mpr ⟨targetSize - 1, List.mem_range.mpr last, by
        rw [sourceWord?_eq, if_neg beyond]⟩
    rw [fault]
    rfl

end Raster.Nearest
