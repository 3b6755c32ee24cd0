import Raster.Refusal

/-! The choice among the three ways of averaging areas. -/

namespace Raster.Area

/-- How an area resize is carried out. -/
inductive Plan where
  /-- Both axes shrink by whole factors: the source splits into equal blocks. -/
  | blocks (across down : Nat)
  /-- No axis grows: source samples are weighted by their overlap with a destination cell. -/
  | overlaps
  /-- An axis grows: a destination cell meets at most two source samples of each axis. -/
  | growth
  deriving DecidableEq, Repr

/-- Whether the target size divides the source size; there is no remainder by zero. -/
def divides? (sourceSize targetSize : Nat) : Option Bool :=
  if targetSize = 0 then none else some (sourceSize % targetSize = 0)

/-- The plan for a pair of extents, a fault when it takes a remainder by zero. -/
def plan? (source target : Extent) : Option Plan :=
  if source.width < target.width ∨ source.height < target.height then some .growth
  else do
    -- The heights are compared only when the widths divide.
    if ← divides? source.width target.width then
      if ← divides? source.height target.height then
        some (.blocks (source.width / target.width) (source.height / target.height))
      else some .overlaps
    else some .overlaps

end Raster.Area
