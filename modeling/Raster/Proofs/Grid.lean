import Raster.Grid

/-! The samples of a packed image, read as one function of row, pixel and channel. -/

namespace Raster.Grid

variable {α : Type} {channels : Nat}

/-- Every visible sample of the image is the one given for its row, pixel and channel. -/
def Shows (image : Grid α channels) (sample : Nat → Nat → Nat → α) : Prop :=
  -- Nothing is said about positions outside the image, which no read reaches.
  ∀ y x c, y < image.height → x < image.width → c < channels →
    image.at? y x c = some (sample y x c)

/-- Tabulating a function that gives every visible sample builds the image that shows them. -/
theorem exists_tabulate?_shows {height width : Nat} {read : Nat → Nat → Nat → Option α}
    {sample : Nat → Nat → Nat → α}
    (reads : ∀ y x c, y < height → x < width → c < channels → read y x c = some (sample y x c)) :
    ∃ image : Grid α channels, tabulate? height width read = some image ∧
      image.height = height ∧ image.width = width ∧ image.Shows sample := by
  -- Every position of the image is read by the given function.
  obtain ⟨image, built⟩ := tabulate?_isSome
    fun y x c inImage inRow inPixel => Option.isSome_of_eq_some (reads y x c inImage inRow inPixel)
  obtain ⟨sameHeight, sameWidth, _⟩ := tabulate?_eq_some built
  refine ⟨image, built, sameHeight, sameWidth, fun y x c inImage inRow inPixel => ?_⟩
  rw [sameHeight] at inImage
  rw [sameWidth] at inRow
  rw [at?_tabulate? built inImage inRow inPixel]
  exact reads y x c inImage inRow inPixel

/-- An image is tabulated by its own samples. -/
theorem tabulate?_at? (image : Grid α channels) :
    tabulate? image.height image.width image.at? = some image := by
  refine tabulate?_eq_some_iff.mpr ⟨rfl, rfl, gather?_eq_some_iff.mpr (List.ext_getElem? ?_)⟩
  intro i
  rw [List.getElem?_map, List.getElem?_map, @Array.getElem?_toList _ image.samples]
  rcases Nat.lt_or_ge i (image.height * image.width * channels) with held | past
  · obtain ⟨row, column, channel⟩ := parts_of_lt held
    -- The parts of a position make up the position again.
    have position : (i / (image.width * channels) * image.width + i / channels % image.width) *
        channels + i % channels = i := by
      rw [Nat.mul_comm image.width, ← Nat.div_div_eq_div_mul, Nat.div_add_mod', Nat.div_add_mod']
    have found := image.size_samples ▸ held
    rw [List.getElem?_range held, Option.map_some, at?, if_pos ⟨row, column, channel⟩, position,
      Array.getElem?_eq_getElem found, Option.map_some]
  · rw [List.getElem?_eq_none (by simpa using past),
      Array.getElem?_eq_none (by rw [image.size_samples]; exact past)]
    rfl

/-- An image is determined by its extent and the samples that it shows. -/
theorem Shows.unique {image other : Grid α channels} {sample : Nat → Nat → Nat → α}
    (shows : image.Shows sample) (again : other.Shows sample) (height : image.height = other.height)
    (width : image.width = other.width) : image = other := by
  -- Both are tabulated by the same samples.
  have same : (tabulate? image.height image.width image.at? : Option (Grid α channels)) =
      tabulate? image.height image.width other.at? :=
    tabulate?_congr fun y x c inImage inRow inPixel =>
      (shows y x c inImage inRow inPixel).trans
        (again y x c (height ▸ inImage) (width ▸ inRow) inPixel).symm
  rw [tabulate?_at?, height, width, tabulate?_at?, Option.some.injEq] at same
  exact same

/-- The image whose samples are read through a function. -/
def map {β : Type} (number : α → β) (image : Grid α channels) : Grid β channels :=
  ⟨image.height, image.width, image.samples.map number, by simpa using image.size_samples⟩

/-- Reading samples through a function does so at every position. -/
@[simp] theorem at?_map {β : Type} (number : α → β) (image : Grid α channels) (y x c : Nat) :
    (image.map number).at? y x c = (image.at? y x c).map number := by
  -- Inside the image the samples are read through the function, and outside there is none.
  by_cases inside : y < image.height ∧ x < image.width ∧ c < channels <;>
    simp [at?, map, inside]

/-- Samples read as they are give the image again. -/
@[simp] theorem map_id (image : Grid α channels) : image.map id = image := by
  simp [map]

variable {image : Grid α channels} {sample : Nat → Nat → Nat → α}

/-- An image read through a function shows its samples read through it. -/
theorem Shows.map {β : Type} (shows : image.Shows sample) (number : α → β) :
    (image.map number).Shows fun y x c => number (sample y x c) := by
  -- The visible positions are the same.
  intro y x c inImage inRow inPixel
  rw [at?_map, shows y x c inImage inRow inPixel, Option.map_some]

/-- Pixels of one row that lie in the image can be gathered. -/
theorem Shows.gather_row (shows : image.Shows sample) {y c : Nat} (inImage : y < image.height)
    (inPixel : c < channels) {columns : List Nat} (inRow : ∀ x ∈ columns, x < image.width) :
    gather? (fun x => image.at? y x c) columns = some (columns.map fun x => sample y x c) :=
  gather?_of_forall fun x member => shows y x c inImage (inRow x member) inPixel

/-- Pixels of one column that lie in the image can be gathered. -/
theorem Shows.gather_column (shows : image.Shows sample) {x c : Nat} (inRow : x < image.width)
    (inPixel : c < channels) {rows : List Nat} (inImage : ∀ y ∈ rows, y < image.height) :
    gather? (fun y => image.at? y x c) rows = some (rows.map fun y => sample y x c) :=
  gather?_of_forall fun y member => shows y x c (inImage y member) inRow inPixel

end Raster.Grid
