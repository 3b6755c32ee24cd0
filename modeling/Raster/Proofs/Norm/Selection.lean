import Mathlib.Data.List.Basic
import Raster.Proofs.Norm.Groups
import Raster.View.Lemmas

/-!
Norms as reductions of lists.  Main statement: `exists_norm_reduced`, the norm of a view is the
reduction, group by group, of its rows without the pixels that the mask leaves out.
-/

namespace Raster

open Scalar (zero)

/-- Whether a pixel counts: all do without a mask, and under one those whose mark is not zero. -/
def counts (mask : Option (View UInt8 1)) (y x : Nat) : Bool :=
  mask.all fun marks => marks.sample? y x 0 ≠ some 0

/-- The samples of a row of pixels without the pixels that do not count. -/
def keptOf {α : Type} (channels width : Nat) (sample? : Nat → Nat → Option α)
    (counted : Nat → Bool) : List α :=
  ((List.range width).filter counted).flatMap fun x => (List.range channels).filterMap (sample? x)

namespace View

variable {α : Type} {channels : Nat}

/-- The samples of row `y` without the pixels that a mask leaves out. -/
def kept (source : View α channels) (mask : Option (View UInt8 1)) (y : Nat) : List α :=
  keptOf channels source.layout.width (source.sample? y) (counts mask y)

/-- The samples that count, row after row. -/
def selection (source : View α channels) (mask : Option (View UInt8 1)) : List α :=
  (List.range source.layout.height).flatMap (source.kept mask)

end View

/-- Reads that all succeed can be gathered, and nothing but them. -/
theorem gather?_eq_filterMap {ι α : Type} {read : ι → Option α} {positions : List ι}
    (reads : ∀ position ∈ positions, (read position).isSome) :
    gather? read positions = some (positions.filterMap read) := by
  induction positions with
  | nil => simp
  | cons position rest ih =>
    -- Every read succeeds, so nothing is filtered out.
    obtain ⟨value, found⟩ := Option.isSome_iff_exists.mp (reads position (by simp))
    rw [gather?_cons, ih fun later member => reads later (by simp [member]), found,
      List.filterMap_cons_some found]
    rfl

namespace NormKind

section

variable {α : Type} {channels : Nat} {image : Grid α channels} {mask : Option (View UInt8 1)}
variable {marks : Option (Grid UInt8 1)} {sample? : Nat → Nat → Nat → Option α}

/-- The marks are those of a mask of the image's extent, and there are none without a mask. -/
structure Marks (mask : Option (View UInt8 1)) (marks : Option (Grid UInt8 1))
    (height width : Nat) : Prop where
  loaded : mask.map View.load? = marks.map some
  extent : ∀ view ∈ mask, view.layout.height = height ∧ view.layout.width = width

/-- The row of a mask's marks lists the marks of the row's pixels. -/
theorem row?_marks {view : View UInt8 1} {grid : Grid UInt8 1} {y : Nat}
    (loaded : view.load? = some grid) (inImage : y < view.layout.height) :
    grid.row? y = some ((List.range view.layout.width).map fun x =>
      (view.sample? y x 0).getD 0) := by
  -- A mask has one channel, so the places of a row are its pixels.
  obtain ⟨other, again, height, width, same⟩ := view.exists_load?
  rw [loaded, Option.some.injEq] at again
  subst again
  rw [Grid.row?, width, Nat.mul_one]
  refine gather?_of_forall fun x member => ?_
  have inRow := List.mem_range.mp member
  rw [Nat.div_one, Nat.mod_one, same y x 0 inImage inRow (by omega)]
  obtain ⟨mark, read⟩ :=
    Option.isSome_iff_exists.mp (view.sample?_isSome inImage inRow (c := 0) (by omega))
  rw [read]
  rfl

/-- The samples of a row that count are those of the pixels that the mask does not leave out. -/
theorem selected?_eq (marked : Marks mask marks image.height image.width)
    (reads : ∀ y x c, y < image.height → x < image.width → c < channels →
      image.at? y x c = sample? y x c) {y : Nat} (inImage : y < image.height) :
    selected? image marks y = some (keptOf channels image.width (sample? y) (counts mask y)) := by
  -- All pixels of the row can be read, and each of them gives its channels in order.
  have pixels : gather? (pixel? image y) (List.range image.width) = some
      ((List.range image.width).map fun x => (List.range channels).filterMap (sample? y x)) := by
    refine gather?_of_forall fun x member => ?_
    have inRow := List.mem_range.mp member
    have same : ∀ c ∈ List.range channels, image.at? y x c = sample? y x c :=
      fun c inPixel => reads y x c inImage inRow (List.mem_range.mp inPixel)
    rw [pixel?, gather?_congr same]
    refine gather?_eq_filterMap fun c inPixel => ?_
    rw [← same c inPixel]
    exact image.at?_isSome inImage inRow (List.mem_range.mp inPixel)
  cases mask with
  | none =>
    cases marks with
    | some grid => cases marked.loaded
    | none =>
      have all : (List.range image.width).filter (counts none y) = List.range image.width :=
        List.filter_eq_self.mpr fun _ _ => rfl
      simp only [selected?, pixels, Option.bind_eq_bind, Option.bind_some, keptOf, all]
      rfl
  | some view =>
    cases marks with
    | none => cases marked.loaded
    | some grid =>
      obtain ⟨height, width⟩ := marked.extent view rfl
      have loaded : view.load? = some grid := Option.some.inj marked.loaded
      have row := row?_marks (y := y) loaded (by omega)
      rw [width] at row
      -- A pixel is paired with its own mark, so the pairs are left out as the pixels are.
      have left : ∀ x ∈ List.range image.width,
          decide ((view.sample? y x 0).getD 0 ≠ 0) = counts (some view) y x := by
        intro x member
        obtain ⟨mark, read⟩ := Option.isSome_iff_exists.mp
          (view.sample?_isSome (y := y) (x := x) (c := 0) (by omega)
            (by rw [width]; exact List.mem_range.mp member) (by omega))
        simp [counts, read]
      simp only [selected?, pixels, row, Option.bind_eq_bind, Option.bind_some, keptOf,
        List.zip_map', List.filter_map, List.unzip_fst, List.map_map]
      rw [← List.filter_congr left]
      rfl

end

variable {α S D : Type} [Scalar S] [Wide D S] [Element α S D] {channels limit : Nat}

/-- Samples taken into a partial result one after another, from zero. -/
def total (kind : NormKind) (samples : List α) : D :=
  (samples.map Element.toDouble).foldl kind.accumulate zero

/-- The samples of the rows of a group. -/
def groupOf (groups : RowGroups) (row : Nat → List α) (group : Nat) : List α :=
  (groups.rows group).flatMap row

/-- The partial results of the groups, in their order. -/
def partials (kind : NormKind) (groups : RowGroups) (row : Nat → List α) : List D :=
  (List.range groups.count).map fun group => kind.total (groupOf groups row group)

/-- Rows of samples reduced group by group: each from zero, then joined in order. -/
def reduced (kind : NormKind) (groups : RowGroups) (row : Nat → List α) : D :=
  (kind.partials groups row).foldl kind.combine zero

/-- A reduction looks at the rows of the image alone. -/
theorem reduced_congr (kind : NormKind) {groups : RowGroups} {row other : Nat → List α}
    (same : ∀ y < groups.height, row y = other y) :
    kind.reduced groups row = kind.reduced groups other := by
  -- Every row of a group is a row of the image.
  have group : ∀ group ∈ List.range groups.count,
      kind.total (groupOf groups row group) = kind.total (groupOf groups other group) := by
    intro group _
    have rows : groupOf groups row group = groupOf groups other group :=
      List.flatMap_congr fun y member => same y (RowGroups.mem_rows_lt member)
    rw [rows]
  rw [reduced, reduced, partials, partials, List.map_congr_left group]

variable {image : Grid α channels} {mask : Option (View UInt8 1)} {marks : Option (Grid UInt8 1)}

/-- The combined result of an image is the reduction of its rows without the pixels that the mask
leaves out. -/
theorem exists_combined?_reduced (kind : NormKind) {sample? : Nat → Nat → Nat → Option α}
    (marked : Marks mask marks image.height image.width)
    (reads : ∀ y x c, y < image.height → x < image.width → c < channels →
      image.at? y x c = sample? y x c)
    (tall : 0 < image.height) (positive : 0 < limit) :
    ∃ groups, RowGroups.of? image.height limit = some groups ∧ groups.height = image.height ∧
      kind.combined? image marks limit = some (kind.reduced groups fun y =>
        keptOf channels image.width (sample? y) (counts mask y)) := by
  -- Every group lists rows of the image, so all of its samples are gathered and taken in order.
  obtain ⟨groups, divided, height⟩ := RowGroups.exists_of? tall positive
  refine ⟨groups, divided, height, ?_⟩
  have parts : ∀ group ∈ List.range groups.count,
      kind.partialOf? image marks (groups.rows group) = some (kind.total (groupOf groups (fun y =>
        keptOf channels image.width (sample? y) (counts mask y)) group)) := by
    intro group _
    have rows : gather? (selected? image marks) (groups.rows group) = some
        ((groups.rows group).map fun y =>
          keptOf channels image.width (sample? y) (counts mask y)) :=
      gather?_of_forall fun y member =>
        selected?_eq marked reads (height ▸ RowGroups.mem_rows_lt member)
    simp only [partialOf?, rows, Option.bind_eq_bind, Option.bind_some]
    rfl
  simp only [combined?, divided, gather?_of_forall parts, Option.bind_eq_bind, Option.bind_some]
  rfl

end NormKind

/-- A view loads an image whose reads are its own, and with it the marks of a mask of its extent. -/
theorem exists_load?_marked {α : Type} {channels : Nat} (source : View α channels)
    {mask : Option (View UInt8 1)} (masked : ∀ marks ∈ mask, source.extent = marks.extent) :
    ∃ image marks, source.load? = some image ∧ image.height = source.layout.height ∧
      image.width = source.layout.width ∧
      NormKind.Marks mask marks source.layout.height source.layout.width ∧
      ∀ y x c, y < source.layout.height → x < source.layout.width → c < channels →
        image.at? y x c = source.sample? y x c := by
  obtain ⟨image, loaded, height, width, reads⟩ := source.exists_load?
  cases mask with
  | none =>
    exact ⟨image, none, loaded, height, width, ⟨rfl, nofun⟩, reads⟩
  | some view =>
    -- The mask is accepted too, so it loads, and its extent is that of the image.
    obtain ⟨marks, held, -⟩ := view.exists_load?
    have extent := masked view rfl
    refine ⟨image, some marks, loaded, height, width, ⟨by simp [held], ?_⟩, reads⟩
    intro other held
    cases held
    exact ⟨(congrArg Extent.height extent).symm, (congrArg Extent.width extent).symm⟩

/-- The norm of an accepted view is the reduction, group by group, of its rows without the pixels
that the mask leaves out. -/
theorem exists_norm_reduced {α : Type} [Element α Float32 Float] {channels limit : Nat}
    (kind : NormKind) (positive : 0 < limit) (source : View α channels)
    (mask : Option (View UInt8 1)) (accepted : checkChannels channels = .ok ())
    (masked : ∀ marks ∈ mask, source.extent = marks.extent) :
    ∃ groups, RowGroups.of? source.layout.height limit = some groups ∧
      groups.height = source.layout.height ∧
      norm kind limit source mask =
        .ok (some (kind.finish (kind.reduced groups (source.kept mask)))) := by
  -- Image and marks are loaded, and what is left to do is the reduction.
  obtain ⟨image, marks, loaded, height, width, marked, reads⟩ := exists_load?_marked source masked
  rw [← height, ← width] at marked reads
  obtain ⟨groups, divided, rows, combined⟩ := NormKind.exists_combined?_reduced kind marked reads
    (height ▸ source.fits.height_pos) positive
  refine ⟨groups, height ▸ divided, rows.trans height, ?_⟩
  rw [width] at combined
  have finished : kind.norm? image marks limit =
      some (kind.finish (kind.reduced groups (source.kept mask))) := by
    rw [NormKind.norm?, combined]
    rfl
  cases mask with
  | none =>
    cases marks with
    | some grid => cases marked.loaded
    | none =>
      simp only [norm, accepted, loaded, finished, Option.bind_eq_bind, Option.bind_some]
      rfl
  | some view =>
    cases marks with
    | none => cases marked.loaded
    | some grid =>
      have held : view.load? = some grid := Option.some.inj marked.loaded
      have extents : checkExtent source.extent view.extent = .ok () := if_pos (masked view rfl)
      simp only [norm, accepted, extents, loaded, held, finished, Option.bind_eq_bind,
        Option.bind_some]
      rfl

end Raster
