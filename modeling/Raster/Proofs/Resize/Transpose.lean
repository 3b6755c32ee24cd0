import Mathlib.Algebra.BigOperators.Group.Multiset.Basic
import Mathlib.Tactic.Ring
import Raster.Proofs.Resize.Coverage
import Raster.Proofs.Resize.Formed

/-!
Resizing and the two axes.  Main statement: `Resampling.formed_turned`, in exact arithmetic what a
mode forms at a place of the transposed image is what it forms at the transposed place of the image.
-/

namespace Raster

/-- Rows and columns exchanged. -/
def Extent.turned (extent : Extent) : Extent := ⟨extent.width, extent.height⟩

variable {α : Type} [Element α ℚ ℚ] {sample : Nat → Nat → α}

/-- Sums over the rows of sums over the columns are sums over the columns of sums over the rows. -/
theorem sum_map_sum_map {ι κ : Type} (rows : List ι) (columns : List κ) (term : ι → κ → ℚ) :
    (rows.map fun row => (columns.map fun column => term row column).sum).sum =
      (columns.map fun column => (rows.map fun row => term row column).sum).sum := by
  simpa using Multiset.sum_map_sum_map (↑rows : Multiset ι) (↑columns : Multiset κ)

namespace Tap

/-- Mixing along the rows first or along the columns first is the same in exact arithmetic. -/
theorem value_turned (row column : Tap ℚ) :
    value (fun y x _ => sample x y) column row 0 =
      value (fun y x _ => sample y x) row column 0 := by
  -- Either way each of the four samples has the product of its two shares.
  simp only [value, blend, mix_rat]
  apply congrArg
  ring

end Tap

namespace Area

/-- The plan with its axes exchanged. -/
def Plan.turned : Plan → Plan
  | .blocks across down => .blocks down across
  | .overlaps => .overlaps
  | .growth => .growth

/-- Exchanged axes are planned alike. -/
theorem plan_turned (source target : Extent) :
    plan source.turned target.turned = (plan source target).turned := by
  -- Both axes are asked the same questions, only in the other order.
  have grows : source.turned.width < target.turned.width ∨
      source.turned.height < target.turned.height ↔
        source.width < target.width ∨ source.height < target.height := Or.comm
  have divides : target.turned.width ∣ source.turned.width ∧
      target.turned.height ∣ source.turned.height ↔
        target.width ∣ source.width ∧ target.height ∣ source.height := And.comm
  rw [plan, plan, apply_ite Plan.turned, apply_ite Plan.turned]
  exact if_congr grows rfl (if_congr divides rfl rfl)

namespace Blocks

/-- The sum of a block runs over its rows and in each of them over its columns. -/
theorem sum_block (across down y x : Nat) :
    ((block sample across down y x).map Element.toSingle).sum =
      ((List.range' (y * down) down).map fun row =>
        ((List.range' (x * across) across).map fun column =>
          (Element.toSingle (sample row column) : ℚ)).sum).sum := by
  -- A block is listed row after row.
  rw [block, positions, List.map_flatMap, List.map_flatMap, List.flatMap_def, List.sum_flatten,
    List.map_map]
  simp only [Function.comp_def, List.map_map]

/-- In exact arithmetic the mean of a block is its sum over its size. -/
theorem mean_rat (across down : Nat) (block : List α) :
    (mean across down block : ℚ) = (block.map Element.toSingle).sum / (across * down : Nat) := by
  -- The sum of a block is folded from its first sample on.
  rw [List.sum_eq_foldl, List.foldl_map]
  exact mul_one_div _ _

/-- The exact mean of a block of the transposed image is that of the transposed block. -/
theorem mean_turned (across down y x : Nat) :
    (mean down across (block (fun y x => sample x y) down across x y) : ℚ) =
      mean across down (block sample across down y x) := by
  -- In exact arithmetic the order of the additions does not matter.
  rw [mean_rat, mean_rat, sum_block, sum_block, sum_map_sum_map, Nat.mul_comm down]

end Blocks

namespace Share

/-- In exact arithmetic no cell starts below the first sample. -/
theorem startsInside_rat : StartsInside ℚ := by
  -- A cell starts at a product of numbers that are not negative.
  intro sourceSize targetSize d
  have start : (0 : ℚ) ≤ d * (sourceSize / targetSize) := by positivity
  apply Bool.eq_false_iff.mpr
  rw [Ne, counted_iff, ofNat_rat, ofNat_rat, ofNat_rat, ofNat_rat, Nat.cast_zero]
  linarith

end Share

namespace Overlaps

/-- Weighting the rows first or the columns first is the same in exact arithmetic. -/
theorem value_turned (rows columns : List (Share ℚ)) :
    value (fun y x => sample x y) columns rows = value sample rows columns := by
  simp only [value, decimated, weighted_rat, List.map_map, Function.comp_def]
  apply congrArg
  -- Each sample takes part with the product of its two weights.
  have products : ∀ (term : Share ℚ → Share ℚ → ℚ) (first second : List (Share ℚ)),
      (first.map fun outer => (second.map fun inner => term outer inner * inner.weight).sum *
        outer.weight).sum = (first.map fun outer => (second.map fun inner =>
          term outer inner * (inner.weight * outer.weight)).sum).sum := by
    intro term first second
    simp only [← List.sum_map_mul_right, mul_assoc]
  rw [products, products, sum_map_sum_map]
  simp only [mul_comm]

end Overlaps

end Area

/-- What a mode forms at a place of the transposed image is, in exact arithmetic, what it forms at
the transposed place of the image. -/
theorem Resampling.formed_turned (mode : Resampling) (source target : Extent) (y x : Nat) :
    mode.formed source.turned target.turned (fun y x => sample x y) x y =
      mode.formed source target sample y x := by
  cases mode with
  | nearest => rfl
  | linear => exact Tap.value_turned _ _
  | area =>
    simp only [formed, Area.plan_turned]
    -- Every plan treats the axes alike.
    cases Area.plan source target with
    | blocks across down =>
      exact congrArg Element.ofSingle (Area.Blocks.mean_turned across down y x)
    | overlaps => exact Area.Overlaps.value_turned _ _
    | growth => exact Tap.value_turned _ _

end Raster
