import Raster.Layout

/-!
Judging layouts in words: every product and sum is checked, and one that is no word is refused as
the condition it belongs to.  Main statement: `checkWord_eq_check`, for a buffer whose length is a
word this is the judgement in whole numbers.
-/

namespace Raster.Layout

/-- The least length of a buffer in words, given the length of a row, if it is a word. -/
def requiredWord? (layout : Layout) (minimum : Nat) : Option Nat :=
  (Word.product? (layout.height - 1) layout.stride).bind fun rows => Word.sum? rows minimum

/-- Refuses a layout for a buffer without leaving the words. -/
def checkWord (layout : Layout) (channels length : Nat) : Except Refusal Unit :=
  if layout.height = 0 ∨ layout.width = 0 then .error (.emptyImage layout.extent)
  else
    match Word.product? layout.width channels with
    | none => .error (.emptyImage layout.extent)
    | some minimum =>
      if layout.stride < minimum then .error (.shortStride layout.stride minimum)
      else if length = 0 then .error .noBuffer
      else
        -- A size that is no word is reported as the largest one.
        match layout.requiredWord? minimum with
        | none => .error (.shortBuffer (wordLimit - 1) length)
        | some required =>
          if length < required then .error (.shortBuffer required length) else .ok ()

variable {layout : Layout} {channels length : Nat}

/-- A required length is formed in words exactly when it is a word. -/
theorem requiredWord?_eq (layout : Layout) (channels : Nat) :
    layout.requiredWord? (layout.rowLength channels) = Word.ofNat? (layout.required channels) := by
  unfold requiredWord? required Word.product? Word.sum? Word.ofNat?
  -- The rows before the last one are part of what is required.
  by_cases rows : (layout.height - 1) * layout.stride < wordLimit
  · rw [if_pos rows, Option.bind_some]
  · rw [if_neg rows, if_neg (by omega), Option.bind_none]

/-- On a buffer whose length is a word, words judge as whole numbers do. -/
theorem checkWord_eq_check (word : length < wordLimit) :
    layout.checkWord channels length = layout.check channels length := by
  unfold checkWord check
  split
  · rfl
  · -- The row is a word or too long for one, and then so is what the buffer needs.
    by_cases row : layout.rowLength channels < wordLimit
    · have minimum : Word.product? layout.width channels = some (layout.rowLength channels) :=
        if_pos row
      rw [minimum, if_neg (by omega)]
      dsimp only
      rw [requiredWord?_eq]
      by_cases whole : layout.required channels < wordLimit
      · have required : Word.ofNat? (layout.required channels) = some (layout.required channels) :=
          if_pos whole
        have kept : saturate (layout.required channels) = layout.required channels :=
          Nat.min_eq_left (by omega)
        rw [required, kept]
      · have beyond : Word.ofNat? (layout.required channels) = none := if_neg whole
        have most : saturate (layout.required channels) = wordLimit - 1 :=
          Nat.min_eq_right (by omega)
        rw [beyond, most, if_pos (show length < layout.required channels by omega)]
    · have beyond : Word.product? layout.width channels = none := if_neg row
      rw [beyond, if_pos (by omega)]

end Raster.Layout
