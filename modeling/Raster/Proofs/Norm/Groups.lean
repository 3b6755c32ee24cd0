import Raster.Norm

/-!
The groups of rows that a norm is summed in.  Main statement: `NormKind.exists_norm?`, over at least
one group a norm never faults.
-/

namespace Raster

/-- Positions that can all be read can be gathered. -/
theorem exists_gather? {ι β : Type} {read : ι → Option β} {positions : List ι}
    (reads : ∀ position ∈ positions, ∃ value, read position = some value) :
    ∃ values, gather? read positions = some values := by
  -- Gathering faults only at a position whose read does.
  cases gathered : gather? read positions with
  | none =>
    obtain ⟨position, member, fault⟩ := gather?_eq_none_iff.mp gathered
    obtain ⟨value, found⟩ := reads position member
    rw [fault] at found
    cases found
  | some values => exact ⟨values, rfl⟩

namespace RowGroups

/-- An image with rows is divided into groups whenever any are allowed. -/
theorem exists_of? {height limit : Nat} (tall : 0 < height) (positive : 0 < limit) :
    ∃ groups, of? height limit = some groups ∧ groups.height = height := by
  -- The count is zero only for no rows or no groups.
  have some_count : min limit height ≠ 0 := by omega
  exact ⟨_, if_neg some_count, rfl⟩

/-- The rows of a group are rows of the image. -/
theorem mem_rows_lt {groups : RowGroups} {group y : Nat} (member : y ∈ groups.rows group) :
    y < groups.height := by
  rw [rows, List.mem_range'_1] at member
  -- The last group is cut off at the height.
  have last : groups.stop group ≤ groups.height := Nat.min_le_right _ _
  omega

end RowGroups

namespace NormKind

variable {α S D : Type} [Scalar S] [Wide D S] [Element α S D] {channels : Nat}
variable {image : Grid α channels} {mask : Option (Grid UInt8 1)}

omit [Scalar S] [Wide D S] [Element α S D] in
/-- The samples of a row that count can be read when the mask has that row too. -/
theorem exists_selected? (masked : ∀ marks ∈ mask, marks.height = image.height) {y : Nat}
    (inImage : y < image.height) : ∃ samples, selected? image mask y = some samples := by
  -- Without a mask all pixels are selected, and with one those it marks.
  obtain ⟨pixels, gathered⟩ : ∃ pixels,
      gather? (pixel? image y) (List.range image.width) = some pixels :=
    exists_gather? fun x inRow => exists_gather? fun c inPixel =>
      Option.isSome_iff_exists.mp (image.at?_isSome inImage (List.mem_range.mp inRow)
        (List.mem_range.mp inPixel))
  cases mask with
  | none =>
    simp only [selected?, gathered, Option.bind_eq_bind, Option.bind_some]
    exact ⟨_, rfl⟩
  | some mask =>
    obtain ⟨marks, read, -⟩ := mask.exists_row? (y := y) (by rw [masked mask rfl]; exact inImage)
    simp only [selected?, gathered, read, Option.bind_eq_bind, Option.bind_some]
    exact ⟨_, rfl⟩

/-- The rows of an image can be summed when the mask has them too. -/
theorem exists_partialOf? (kind : NormKind)
    (masked : ∀ marks ∈ mask, marks.height = image.height) {rows : List Nat}
    (inImage : ∀ y ∈ rows, y < image.height) :
    ∃ sum : D, kind.partialOf? image mask rows = some sum := by
  -- The selected samples of every row of the group can be gathered.
  obtain ⟨samples, gathered⟩ := exists_gather? fun y member =>
    exists_selected? masked (inImage y member)
  simp only [partialOf?, gathered, Option.bind_eq_bind, Option.bind_some]
  exact ⟨_, rfl⟩

/-- Over at least one group an image with rows always has a norm. -/
theorem exists_norm? [Element α Float32 Float] (kind : NormKind)
    (masked : ∀ marks ∈ mask, marks.height = image.height) (tall : 0 < image.height)
    {limit : Nat} (positive : 0 < limit) :
    ∃ value, kind.norm? image mask limit = some value := by
  -- The groups divide the rows, so every partial sum is over rows of the image.
  obtain ⟨groups, divided, height⟩ := RowGroups.exists_of? tall positive
  have summed : ∀ group ∈ List.range groups.count,
      ∃ sum : Float, kind.partialOf? image mask (groups.rows group) = some sum :=
    fun group _ => exists_partialOf? kind masked
      fun y member => height ▸ RowGroups.mem_rows_lt member
  obtain ⟨partials, gathered⟩ := exists_gather? summed
  simp only [norm?, combined?, divided, gathered, Option.bind_eq_bind, Option.bind_some,
    Option.map_some]
  exact ⟨_, rfl⟩

end NormKind

end Raster
