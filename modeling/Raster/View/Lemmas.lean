import Raster.View

/-!
What views read and write.  Main statements: `exists_load?` and `exists_store?`, the exchange with
packed images never faults, reads exactly the visible samples and writes nothing else.
-/

namespace Raster

/-- A slice is there exactly when its end is. -/
theorem slice?_eq_some_iff {α : Type} {data part : Array α} {start count : Nat} :
    slice? data start count = some part ↔
      start + count ≤ data.size ∧ part = data.extract start (start + count) := by
  unfold slice?
  -- The slice is cut only where it is whole.
  split
  · simp [*, eq_comm]
  · simp [*]

namespace View

variable {α : Type} {channels : Nat}

/-- A view that has been made lies over its buffer by the layout, which was accepted. -/
theorem of_make {layout : Layout} {data : Array α} {view : View α channels}
    (made : make channels layout data = .ok view) :
    layout.check channels data.size = .ok () ∧ view.layout = layout ∧ view.data = data := by
  unfold make at made
  -- A view is made only when the layout is accepted.
  split at made
  · cases made
  · cases made
    exact ⟨by assumption, rfl, rfl⟩

/-- A visible sample is read at its place in the buffer. -/
theorem sample?_eq (view : View α channels) {y x c : Nat} (inRow : x < view.layout.width)
    (inPixel : c < channels) :
    view.sample? y x c = view.data[view.layout.rowStart y + (x * channels + c)]? := by
  rw [sample?, if_pos ⟨inRow, inPixel⟩, Layout.pixelStart, Nat.add_assoc]

/-- A pixel and a channel are a place in a row. -/
theorem place_in_row {width x c : Nat} (inRow : x < width) (inPixel : c < channels) :
    x * channels + c < width * channels := by
  -- The pixels up to and including this one fit in the row.
  have pixels := Nat.mul_le_mul_right channels (Nat.succ_le_of_lt inRow)
  rw [Nat.succ_mul] at pixels
  omega

/-- Every visible sample of a view can be read. -/
theorem sample?_isSome (view : View α channels) {y x c : Nat} (inImage : y < view.layout.height)
    (inRow : x < view.layout.width) (inPixel : c < channels) : (view.sample? y x c).isSome := by
  rw [view.sample?_eq inRow inPixel]
  -- A fitting layout has a place for every sample.
  simpa using view.fits.place_lt inImage (place_in_row inRow inPixel)

/-- Loading never faults; the image has the view's extent and its visible samples. -/
theorem exists_load? (view : View α channels) :
    ∃ image, view.load? = some image ∧ image.height = view.layout.height ∧
      image.width = view.layout.width ∧
      ∀ y x c, y < view.layout.height → x < view.layout.width → c < channels →
        image.at? y x c = view.sample? y x c := by
  -- Every read succeeds, so the table of them is built.
  obtain ⟨image, built⟩ := Grid.tabulate?_isSome
    fun y x c inImage inRow inPixel => view.sample?_isSome (y := y) inImage inRow inPixel
  obtain ⟨sameHeight, sameWidth, _⟩ := Grid.tabulate?_eq_some built
  exact ⟨image, built, sameHeight, sameWidth,
    fun y x c inImage inRow inPixel => Grid.at?_tabulate? built inImage inRow inPixel⟩

/-- Views of one extent with the same visible samples load the same image. -/
theorem load?_congr {view other : View α channels} (extent : view.extent = other.extent)
    (agree : ∀ y x c, y < view.layout.height → x < view.layout.width → c < channels →
      view.sample? y x c = other.sample? y x c) : view.load? = other.load? := by
  -- The loops run over the extents, which are the same.
  have height : view.layout.height = other.layout.height := congrArg Extent.height extent
  have width : view.layout.width = other.layout.width := congrArg Extent.width extent
  rw [load?, load?, ← height, ← width]
  exact Grid.tabulate?_congr agree

/-- Writing a row that the buffer holds changes it as far as the values reach, and nothing else. -/
theorem exists_setRow? (view : View α channels) {y : Nat} (values : List α)
    (held : view.layout.rowStart y + view.layout.rowLength channels ≤ view.data.size) :
    ∃ written, view.setRow? y values = some written ∧ written.layout = view.layout ∧
      written.data.size = view.data.size ∧
      (∀ k, k < view.layout.rowLength channels → k < values.length →
        written.data[view.layout.rowStart y + k]? = values[k]?) ∧
      ∀ i, (∀ k, k < view.layout.rowLength channels → i ≠ view.layout.rowStart y + k) →
        written.data[i]? = view.data[i]? := by
  simp only [setRow?, held, if_true, Option.some.injEq, exists_eq_left', Array.size_mapIdx,
    Array.getElem?_mapIdx, true_and]
  constructor
  · intro k inRow reached
    have inside : view.layout.rowStart y + k < view.data.size := by omega
    simp [inside, inRow, reached]
  · intro i outside
    -- A place outside the row is before its start or not before its end.
    have apart : ¬ (view.layout.rowStart y ≤ i ∧
        i < view.layout.rowStart y + view.layout.rowLength channels) := by
      rintro ⟨after, before⟩
      exact outside (i - view.layout.rowStart y) (by omega) (by omega)
    cases found : view.data[i]? with
    | none => simp
    | some value => simp [apart]

/-- Writing the first rows of an image: those rows hold its samples, all else is as it was. -/
theorem exists_storeRows? (view : View α channels) (image : Grid α channels)
    (height : image.height = view.layout.height) (width : image.width = view.layout.width)
    {count : Nat} (within : count ≤ view.layout.height) :
    ∃ written, (List.range count).foldlM
        (fun written y => (image.row? y).bind (written.setRow? y)) view = some written ∧
      written.layout = view.layout ∧ written.data.size = view.data.size ∧
      (∀ y k, y < count → k < view.layout.rowLength channels →
        written.data[view.layout.rowStart y + k]? = image.at? y (k / channels) (k % channels)) ∧
      ∀ i, (∀ y k, y < count → k < view.layout.rowLength channels →
        i ≠ view.layout.rowStart y + k) → written.data[i]? = view.data[i]? := by
  induction count with
  | zero => exact ⟨view, by simp, rfl, rfl, by simp, fun _ _ => rfl⟩
  | succ count ih =>
    obtain ⟨before, run, sameLayout, sameSize, rows, rest⟩ := ih (by omega)
    obtain ⟨values, read, length, entries⟩ := image.exists_row? (y := count) (by omega)
    -- The next row lies inside the buffer because the view holds its layout.
    have held : before.layout.rowStart count + before.layout.rowLength channels ≤
        before.data.size := by
      rw [sameLayout, sameSize]
      exact view.fits.row_le (by omega)
    obtain ⟨written, set, layout, size, row, others⟩ := before.exists_setRow? values held
    rw [sameLayout] at row others
    refine ⟨written, ?_, by rw [layout, sameLayout], by rw [size, sameSize], ?_, ?_⟩
    · rw [List.range_succ, List.foldlM_append, run]
      simp [read, set]
    · intro y k inRows inRow
      by_cases last : y = count
      · subst last
        have reached : k < values.length := by
          rw [length, width]
          exact inRow
        rw [row k inRow reached, entries k (by rw [width]; exact inRow)]
      · -- Earlier rows lie apart from the row just written.
        rw [others _ fun j inLast same => last (view.fits.place_inj inRow inLast same).1]
        exact rows y k (by omega) inRow
    · intro i outside
      rw [others i fun k inRow => outside count k (by omega) inRow]
      exact rest i fun y k inRows inRow => outside y k (by omega) inRow

/-- Storing an image of the view's extent never faults; it writes the visible samples alone. -/
theorem exists_store? (view : View α channels) (image : Grid α channels)
    (height : image.height = view.layout.height) (width : image.width = view.layout.width) :
    ∃ written, view.store? image = some written ∧ written.layout = view.layout ∧
      written.data.size = view.data.size ∧
      (∀ y x c, y < view.layout.height → x < view.layout.width → c < channels →
        written.sample? y x c = image.at? y x c) ∧
      ∀ i, (∀ y k, y < view.layout.height → k < view.layout.rowLength channels →
        i ≠ view.layout.rowStart y + k) → written.data[i]? = view.data[i]? := by
  obtain ⟨written, run, layout, size, rows, rest⟩ :=
    view.exists_storeRows? image height width (Nat.le_refl _)
  refine ⟨written, run, layout, size, fun y x c inImage inRow inPixel => ?_, rest⟩
  rw [sample?_eq written (by rw [layout]; exact inRow) inPixel, layout,
    rows y _ inImage (place_in_row inRow inPixel)]
  -- The place of a sample in its row gives back its pixel and channel.
  rw [Nat.mul_comm x, Nat.mul_add_div (by omega), Nat.div_eq_of_lt inPixel, Nat.add_zero,
    Nat.mul_add_mod, Nat.mod_eq_of_lt inPixel]

end View

end Raster
