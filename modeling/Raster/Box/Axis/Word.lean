import Raster.Border.Word
import Raster.Box.Axis

/-!
Axes in words: the period and the samples that a run can reach are formed in words, and what leaves
them is a fault.  Main statement: `periodWord?_eq_periodOf`, on every axis whose doubled length is a
word its period is found in words.
-/

namespace Raster.WindowAxis

/-- The period with which a border repeats an axis, if it does, and if it is a word. -/
def periodWord? (length : Nat) (border : Border) : Option (Option Nat) :=
  if length = 1 then some none
  else
    match border with
    | .replicate => some none
    | .reflect => (Word.product? 2 length).map some
    | .reflect101 | .standard => do
      let both ← Word.product? 2 length
      -- The length is not one here, so the difference is above zero.
      let period ← less? both 2
      some (some period)

/-- The axis of `length` samples under a window of `size` samples, its index formed in words. -/
def makeWord? (length size : Nat) (border : Border) : Option WindowAxis := do
  let period? ← periodWord? length border
  match period? with
  | none => some { length, size, period?, index := List.range length }
  | some period =>
    -- Two periods, so that a run may start anywhere in the first.
    let entries ← Word.product? 2 period
    let index ← border.tableWord? 0 entries length
    some { length, size, period?, index }

variable {length : Nat}

/-- The period of an axis is formed in words if twice its length is one. -/
theorem periodWord?_eq_periodOf (positive : 0 < length) (small : 2 * length < wordLimit)
    (border : Border) : periodWord? length border = some (periodOf length border) := by
  -- Twice the length is a word, and so is anything below it.
  have both : Word.product? 2 length = some (2 * length) := if_pos small
  unfold periodWord? periodOf
  split
  · rfl
  · cases border with
    | replicate => rfl
    | reflect => rw [both]; rfl
    | reflect101 | standard =>
      have less : less? (2 * length) 2 = some (2 * length - 2) := if_pos (by omega)
      rw [both, Option.bind_eq_bind, Option.bind_some, less]
      rfl

end Raster.WindowAxis
