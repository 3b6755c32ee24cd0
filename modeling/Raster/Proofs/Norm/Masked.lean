import Raster.Proofs.Norm.Selection
import Raster.Proofs.View.Routes

/-!
Norms under masks.  Main statement: `norm_masked_eq_reduced`, a mask selects whole pixels: the norm
is the reduction of the rows without the pixels whose mark is zero, and nothing else of the mask or
of those pixels matters.
-/

namespace Raster

open Scalar (zero)

variable {α : Type} {channels : Nat}

/-- A row of pixels is the row of their samples. -/
theorem range_flatMap_pixels (width : Nat) (sample? : Nat → Nat → Option α) :
    ((List.range width).flatMap fun x => (List.range channels).filterMap (sample? x)) =
      (List.range (width * channels)).filterMap fun k =>
        sample? (k / channels) (k % channels) := by
  -- By induction on the width: the last pixel gives the last samples.
  induction width with
  | zero => simp
  | succ width ih =>
    have last : ∀ c ∈ List.range channels, sample? width c =
        sample? ((width * channels + c) / channels) ((width * channels + c) % channels) := by
      intro c inPixel
      have below := List.mem_range.mp inPixel
      rw [Nat.mul_comm, Nat.mul_add_div (by omega), Nat.div_eq_of_lt below, Nat.mul_add_mod,
        Nat.mod_eq_of_lt below, Nat.add_zero]
    rw [List.range_succ, List.flatMap_append, ih, List.flatMap_singleton, Nat.succ_mul,
      List.range_add, List.filterMap_append, List.filterMap_map, List.filterMap_congr last]
    rfl

/-- Samples are kept alike when the same pixels count and those pixels are the same. -/
theorem keptOf_congr {width : Nat} {sample? other : Nat → Nat → Option α}
    {counted marked : Nat → Bool} (marks : ∀ x < width, counted x = marked x)
    (samples : ∀ x < width, counted x = true → ∀ c < channels, sample? x c = other x c) :
    keptOf channels width sample? counted = keptOf channels width other marked := by
  -- The same pixels are left, and of those every channel is the same.
  have left : (List.range width).filter counted = (List.range width).filter marked :=
    List.filter_congr fun x inRow => marks x (List.mem_range.mp inRow)
  rw [keptOf, keptOf, ← left]
  apply List.flatMap_congr
  intro x member
  obtain ⟨inRow, chosen⟩ := List.mem_filter.mp member
  apply List.filterMap_congr
  intro c inPixel
  exact samples x (List.mem_range.mp inRow) chosen c (List.mem_range.mp inPixel)

namespace View

/-- Without a mask the samples that count are those of the row slice. -/
theorem row?_eq_kept (source : View α channels) {y : Nat} (inImage : y < source.layout.height) :
    (source.row? y).map Array.toList = some (source.kept none y) := by
  -- A slice and the loaded image have the same row, and its places are pixels and channels.
  obtain ⟨image, loaded, -, width, reads⟩ := source.exists_load?
  have all : (List.range source.layout.width).filter (counts none y) =
      List.range source.layout.width := List.filter_eq_self.mpr fun _ _ => rfl
  have same : ∀ k ∈ List.range (source.layout.width * channels),
      image.at? y (k / channels) (k % channels) =
        source.sample? y (k / channels) (k % channels) := by
    intro k member
    obtain ⟨inRow, inPixel⟩ := parts_of_place (List.mem_range.mp member)
    exact reads y _ _ inImage inRow inPixel
  rw [row?_of_load? loaded inImage, Grid.row?, width, gather?_congr same, kept, keptOf, all,
    range_flatMap_pixels]
  refine gather?_eq_filterMap fun k member => ?_
  obtain ⟨inRow, inPixel⟩ := parts_of_place (List.mem_range.mp member)
  exact source.sample?_isSome inImage inRow inPixel

end View

/-- A reduction of no samples is zero. -/
theorem NormKind.reduced_of_empty {S D : Type} [Scalar S] [Wide D S] [Element α S D]
    (kind : NormKind) {groups : RowGroups} {row : Nat → List α}
    (empty : ∀ y < groups.height, row y = []) (idle : kind.combine (zero : D) zero = zero) :
    (kind.reduced groups row : D) = zero := by
  -- Each group starts from zero and takes nothing in.
  have parts : ∀ group ∈ List.range groups.count, kind.total (groupOf groups row group) = zero := by
    intro group _
    have none_left : groupOf groups row group = [] :=
      List.flatMap_eq_nil_iff.mpr fun y member => empty y (RowGroups.mem_rows_lt member)
    rw [none_left]
    rfl
  rw [reduced, partials, List.map_congr_left parts]
  -- Joining zero to zero any number of times gives zero.
  induction List.range groups.count with
  | nil => rfl
  | cons group rest ih => rw [List.map_cons, List.foldl_cons, idle, ih]

/-- A mask that is given has the image's extent when its view does. -/
theorem forall_mask_extent {extent : Extent} {view : View UInt8 1} (same : extent = view.extent) :
    ∀ mask ∈ some view, extent = mask.extent := by
  -- The one mask there may be is the view.
  intro mask given
  cases given
  exact same

section

variable [Element α Float32 Float] {limit : Nat} {source other : View α channels}
variable {mask marks : Option (View UInt8 1)}

/-- Views with the same samples left in every row have the same norm. -/
theorem norm_congr (kind : NormKind) (positive : 0 < limit)
    (accepted : checkChannels channels = .ok ()) (extents : other.extent = source.extent)
    (masked : ∀ view ∈ mask, source.extent = view.extent)
    (marked : ∀ view ∈ marks, other.extent = view.extent)
    (same : ∀ y < source.layout.height, other.kept marks y = source.kept mask y) :
    norm kind limit other marks = norm kind limit source mask := by
  -- Both norms are reductions, and a reduction looks at the samples left in each row alone.
  obtain ⟨groups, divided, height, reduces⟩ :=
    exists_norm_reduced kind positive source mask accepted masked
  obtain ⟨again, dividedAgain, -, reducesAgain⟩ :=
    exists_norm_reduced kind positive other marks accepted marked
  -- Images of the same height are divided into the same groups.
  have heights : other.layout.height = source.layout.height := congrArg Extent.height extents
  rw [heights, divided, Option.some.injEq] at dividedAgain
  subst dividedAgain
  rw [reduces, reducesAgain, NormKind.reduced_congr kind fun y inImage => same y (height ▸ inImage)]

end

/-- A mask selects whole pixels.  Both norms are the same reduction, of the row slices without a
mask, and under a mask of the rows without the pixels whose mark is zero.  Hence only the places of
the zeros matter, and the pixels there do not; marks without a zero change nothing, and under zeros
alone the norm is positive zero. -/
theorem norm_masked_eq_reduced {depth : Depth} {limit : Nat} (kind : NormKind)
    (positive : 0 < limit) {source : View depth.Sample channels} {mask : View UInt8 1}
    (accepted : checkChannels channels = .ok ()) (extents : source.extent = mask.extent) :
    (∃ groups, RowGroups.of? source.layout.height limit = some groups ∧
      (∀ y < source.layout.height,
        (source.row? y).map Array.toList = some (source.kept none y)) ∧
      norm kind limit source none =
        .ok (some (kind.finish (kind.reduced groups (source.kept none)))) ∧
      norm kind limit source (some mask) =
        .ok (some (kind.finish (kind.reduced groups (source.kept (some mask)))))) ∧
    (∀ other : View UInt8 1, other.extent = mask.extent →
      (∀ y < source.layout.height, ∀ x < source.layout.width,
        other.sample? y x 0 = some 0 ↔ mask.sample? y x 0 = some 0) →
      norm kind limit source (some other) = norm kind limit source (some mask)) ∧
    (∀ other : View depth.Sample channels, other.extent = source.extent →
      (∀ y < source.layout.height, ∀ x < source.layout.width, mask.sample? y x 0 ≠ some 0 →
        ∀ c < channels, other.sample? y x c = source.sample? y x c) →
      norm kind limit other (some mask) = norm kind limit source (some mask)) ∧
    ((∀ y < source.layout.height, ∀ x < source.layout.width, mask.sample? y x 0 ≠ some 0) →
      norm kind limit source (some mask) = norm kind limit source none) ∧
    ((∀ y < source.layout.height, ∀ x < source.layout.width, mask.sample? y x 0 = some 0) →
      norm kind limit source (some mask) = .ok (some (Float.ofBits 0))) := by
  have masked := forall_mask_extent extents
  obtain ⟨groups, divided, height, reduces⟩ :=
    exists_norm_reduced kind positive source (some mask) accepted masked
  refine ⟨⟨groups, divided, fun y inImage => source.row?_eq_kept inImage, ?_, reduces⟩, ?_, ?_, ?_,
    ?_⟩
  · obtain ⟨again, dividedAgain, -, whole⟩ :=
      exists_norm_reduced kind positive source none accepted nofun
    rw [divided, Option.some.injEq] at dividedAgain
    subst dividedAgain
    exact whole
  · intro other same zeros
    have marked := forall_mask_extent (extents.trans same.symm)
    refine norm_congr kind positive accepted rfl masked marked fun y inImage => ?_
    refine keptOf_congr (fun x inRow => ?_) fun _ _ _ _ _ => rfl
    have alike := zeros y inImage x inRow
    simp [counts, alike]
  · intro other same agree
    have widths : other.layout.width = source.layout.width := congrArg Extent.width same
    have marked := forall_mask_extent (same.trans extents)
    refine norm_congr kind positive accepted same masked marked fun y inImage => ?_
    -- Only pixels that count are looked at, and those are the same.
    rw [View.kept, View.kept, widths]
    refine keptOf_congr (fun _ _ => rfl) fun x inRow chosen => ?_
    exact agree y inImage x inRow (by simpa [counts] using chosen)
  · intro nonzero
    refine norm_congr kind positive accepted rfl nofun masked fun y inImage => ?_
    refine keptOf_congr (fun x inRow => ?_) fun _ _ _ _ _ => rfl
    have mark := nonzero y inImage x inRow
    simp [counts, mark]
  · intro zeros
    -- No pixel counts, so every row is left empty.
    have empty : ∀ y < groups.height, source.kept (some mask) y = [] := by
      intro y inImage
      rw [height] at inImage
      have none_left : (List.range source.layout.width).filter (counts (some mask) y) = [] := by
        apply List.filter_eq_nil_iff.mpr
        intro x member
        simp [counts, zeros y inImage x (List.mem_range.mp member)]
      rw [View.kept, keptOf, none_left, List.flatMap_nil]
    rw [reduces, kind.reduced_of_empty empty (by cases kind <;> rfl)]
    cases kind <;> rfl

/-- Two numbers with NaN between them. -/
def aroundNan : View Depth.single.Sample 1 :=
  ⟨⟨1, 3, 3⟩, #[⟨0x40000000⟩, ⟨0x7fc00000⟩, ⟨0x40400000⟩], Layout.check_eq_ok_iff.mp rfl⟩

/-- The same two numbers with zero between them. -/
def aroundZero : View Depth.single.Sample 1 :=
  ⟨⟨1, 3, 3⟩, #[⟨0x40000000⟩, ⟨0⟩, ⟨0x40400000⟩], Layout.check_eq_ok_iff.mp rfl⟩

/-- Marks that leave out the middle of three pixels. -/
def outerMarks : View UInt8 1 := ⟨⟨1, 3, 3⟩, #[1, 0, 7], Layout.check_eq_ok_iff.mp rfl⟩

/-- Other marks that leave out the same pixel, with a sample between rows. -/
def widerMarks : View UInt8 1 := ⟨⟨1, 3, 4⟩, #[255, 0, 2, 9], Layout.check_eq_ok_iff.mp rfl⟩

/-- A pixel that is left out may be NaN, and the marks of the others may be any. -/
theorem norm_masked_aroundNan : 0 < 2 ∧ checkChannels 1 = .ok () ∧
    aroundNan.extent = outerMarks.extent ∧
    norm .l2 2 aroundZero (some outerMarks) = norm .l2 2 aroundNan (some widerMarks) := by
  obtain ⟨-, marks, pixels, -, -⟩ :=
    @norm_masked_eq_reduced 1 .single 2 .l2 (by decide) aroundNan outerMarks rfl rfl
  refine ⟨by decide, rfl, rfl, ?_⟩
  -- First the marks are exchanged, then the pixel that no mark counts.
  rw [marks widerMarks rfl (by decide), pixels aroundZero rfl (by decide)]

end Raster
