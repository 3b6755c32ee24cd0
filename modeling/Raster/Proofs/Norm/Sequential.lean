import Mathlib.Algebra.Order.BigOperators.Group.List
import Mathlib.Tactic.Linarith
import Raster.Proofs.Binary.Counting
import Raster.Proofs.Grid
import Raster.Proofs.Norm.Partition

/-!
Norms in groups and in a single pass.  Main statement: `norm_eq_sequential`, the groups divide the
rows, and the reduction by groups is that of a single pass over the samples that count: exactly in
exact arithmetic, and bit for bit for the largest absolute value and for sums of bytes that have at
most 53 digits.
-/

namespace Raster

open Binary (double double_add double_mul abs_double lt_of_lt_of_lt lt_or_lt_of_rank)
open Scalar (larger zero)

namespace NormKind

section Exact

/-- The larger of two rationals is their maximum. -/
theorem larger_rat (x y : ℚ) : larger x y = max x y := by
  -- Where the two are equal either choice gives the same number.
  rw [max_def_lt, larger]
  exact if_congr (by simp [Scalar.lt]) rfl rfl

/-- The absolute value of a rational is its absolute value. -/
theorem abs_rat (x : ℚ) : Wide.abs x = |x| := by
  show (if x < 0 then -x else x) = |x|
  split_ifs with negative
  · -- The magnitude of the scalar rationals is written by a comparison with zero.
    exact (abs_of_neg negative).symm
  · exact (abs_of_nonneg (not_lt.mp negative)).symm

/-- Exact terms are not negative. -/
theorem term_nonneg (kind : NormKind) (value : ℚ) : 0 ≤ kind.term value := by
  -- Magnitudes and squares.
  cases kind with
  | inf | l1 =>
    rw [term, abs_rat]
    exact abs_nonneg value
  | l2 => exact mul_self_nonneg value

/-- Exact partial results are not negative, and can be regrouped. -/
theorem regroups_rat (kind : NormKind) : kind.Regroups fun a : ℚ => 0 ≤ a := by
  -- Maxima and sums are associative; a maximum with zero is kept because nothing is negative.
  have start : (zero : ℚ) = 0 := rfl
  cases kind with
  | inf =>
    refine ⟨start.ge, ?_, ?_, ?_⟩
    · intro a value reached
      rw [accumulate_eq, combine, larger_rat]
      exact reached.trans (le_max_left _ _)
    · intro a reached
      rw [combine, larger_rat, start]
      exact max_eq_left reached
    · intro a value b reached
      simp only [accumulate_eq, combine, larger_rat, start]
      rw [max_eq_right (term_nonneg _ value), max_assoc]
  | l1 | l2 =>
    refine ⟨start.ge, ?_, ?_, ?_⟩
    · intro a value reached
      rw [accumulate_eq]
      exact add_nonneg reached (term_nonneg _ value)
    · intro a _
      exact add_zero a
    · intro a value b _
      simp only [accumulate_eq, combine, start]
      ring

end Exact

section Largest

variable {a b c : Float}

/-- A double that is above another is the larger of the two. -/
theorem larger_of_lt (above : a < b) : larger a b = b := if_pos (decide_eq_true above)

/-- A double that no second one is above stays, even when the second one is NaN. -/
theorem larger_of_not_lt (notAbove : ¬ a < b) : larger a b = a :=
  if_neg fun below => notAbove (of_decide_eq_true below)

/-- Which of three doubles is chosen does not depend on the grouping when the second is a number or
an infinity. -/
theorem larger_assoc (ranked : (Binary.rank b).isSome) :
    larger (larger a b) c = larger a (larger b c) := by
  by_cases first : a < b
  · rw [larger_of_lt first]
    by_cases second : b < c
    · rw [larger_of_lt second, larger_of_lt (lt_of_lt_of_lt first second)]
    · rw [larger_of_not_lt second, larger_of_lt first]
  · rw [larger_of_not_lt first]
    by_cases second : b < c
    · rw [larger_of_lt second]
    · -- Nothing above the first is above the second, so the first stays.
      have third : ¬ a < c := by
        intro apart
        exact (lt_or_lt_of_rank ranked apart).elim first second
      rw [larger_of_not_lt second, larger_of_not_lt first, larger_of_not_lt third]

/-- Zero is a number, and what is above zero is a number or infinity. -/
theorem rank_larger_zero (b : Float) : (Binary.rank (larger zero b)).isSome := by
  -- Zero has a rank, so the larger of zero and anything has one, NaN included.
  have ranked : Binary.rank (zero : Float) = some ((0 : WithTop ℚ) : WithBot (WithTop ℚ)) :=
    (Binary.readsDouble_double (n := 0) (by decide)).rank_eq
  by_cases above : zero < b
  · obtain ⟨-, -, q, place, -⟩ := Binary.lt_iff_rank.mp above
    rw [larger_of_lt above]
    exact Option.isSome_of_eq_some place
  · rw [larger_of_not_lt above, ranked]
    rfl

/-- Running maxima of doubles are not below zero, and can be regrouped; NaN has no effect. -/
theorem regroups_largest : inf.Regroups fun a : Float => ¬ a < zero := by
  -- Joined to zero first, a term is never NaN, and beside it the grouping does not matter.
  have self : ¬ (zero : Float) < zero := by
    intro below
    obtain ⟨p, place, q, again, less⟩ := Binary.lt_iff_rank.mp below
    cases place.symm.trans again
    exact lt_irrefl p less
  have zeroRanked : (Binary.rank (zero : Float)).isSome :=
    larger_of_not_lt self ▸ rank_larger_zero zero
  refine ⟨self, ?_, fun a reached => larger_of_not_lt reached, ?_⟩
  · intro a value reached below
    rw [accumulate_eq, combine] at below
    -- A term is chosen only when it is above a result that is itself not below zero.
    by_cases above : a < inf.term value
    · rw [larger_of_lt above] at below
      exact reached (lt_of_lt_of_lt above below)
    · rw [larger_of_not_lt above] at below
      exact reached below
  · intro a value b reached
    simp only [accumulate_eq, combine]
    rw [← larger_assoc (rank_larger_zero _), ← larger_assoc zeroRanked, larger_of_not_lt reached]

end Largest

section Bytes

variable {kind : NormKind}

/-- What a byte adds to a sum. -/
def weight (kind : NormKind) (byte : UInt8) : Nat :=
  match kind with
  -- Terms of bytes are natural numbers, so rounding never enters below `2 ^ 53`.
  | .inf | .l1 => byte.toNat
  | .l2 => byte.toNat * byte.toNat

/-- What bytes add to a sum. -/
def weights (kind : NormKind) (samples : List UInt8) : Nat := (samples.map kind.weight).sum

/-- No byte adds more than the square of the largest. -/
theorem weight_le (kind : NormKind) (byte : UInt8) : kind.weight byte ≤ 255 * 255 := by
  have bound : byte.toNat ≤ 255 := by
    have below := byte.toNat_lt
    -- The largest square bounds the other terms, too.
    omega
  cases kind with
  | inf | l1 => exact bound.trans (by norm_num)
  | l2 => exact Nat.mul_le_mul bound bound

/-- Bytes add at most the square of the largest each. -/
theorem weights_le (kind : NormKind) (samples : List UInt8) :
    kind.weights samples ≤ 255 * 255 * samples.length := by
  -- Each term is bounded, so the sum is by the count of them.
  have bound := List.sum_le_card_nsmul (samples.map kind.weight) (255 * 255) (by
    intro value member
    obtain ⟨byte, -, rfl⟩ := List.mem_map.mp member
    exact kind.weight_le byte)
  rw [List.length_map, smul_eq_mul, Nat.mul_comm] at bound
  exact bound

/-- The bytes of both parts add what the bytes of the whole add. -/
theorem weights_append (kind : NormKind) (front rest : List UInt8) :
    kind.weights (front ++ rest) = kind.weights front + kind.weights rest := by
  rw [weights, List.map_append, List.sum_append]
  rfl

/-- A beginning of the bytes does not add more than all of them. -/
theorem weights_le_of_prefix (kind : NormKind) {front samples : List UInt8}
    (cut : front <+: samples) :
    kind.weights front ≤ kind.weights samples := by
  obtain ⟨rest, rfl⟩ := cut
  -- What comes after the front only adds.
  rw [weights_append]
  exact Nat.le_add_right _ _

/-- The term of a byte is what it adds. -/
theorem term_byte (kind : NormKind) (byte : UInt8) :
    kind.term (Element.toDouble byte : Float) = double (kind.weight byte) := by
  have read : (Element.toDouble byte : Float) = double byte.toNat := rfl
  have digits : byte.toNat < 2 ^ 53 := byte.toNat_lt.trans (by norm_num)
  -- The square of a byte is far below what a double holds.
  have square : byte.toNat * byte.toNat < 2 ^ 53 :=
    (NormKind.l2.weight_le byte).trans_lt (by norm_num)
  rw [read]
  cases kind with
  | inf | l1 => exact abs_double _
  | l2 => exact double_mul digits digits square

/-- Sums are joined exactly while they have at most 53 digits. -/
theorem combine_double (sums : kind ≠ .inf) {m n : Nat} (short : m + n < 2 ^ 53) :
    kind.combine (double m) (double n) = double (m + n) := by
  cases kind with
  -- The largest magnitude is not a sum.
  | inf => exact absurd rfl sums
  | l1 | l2 => exact double_add short

/-- Sums of bytes are exact while they have at most 53 digits. -/
theorem total_bytes (sums : kind ≠ .inf) {samples : List UInt8}
    (short : kind.weights samples < 2 ^ 53) :
    kind.total samples = double (kind.weights samples) := by
  -- By induction on the bytes, from any sum that leaves room for them.
  have run : ∀ n, n + kind.weights samples < 2 ^ 53 →
      (samples.map Element.toDouble).foldl kind.accumulate (double n) =
        double (n + kind.weights samples) := by
    clear short
    induction samples with
    | nil => exact fun n _ => rfl
    | cons byte rest ih =>
      intro n room
      have parts : kind.weights (byte :: rest) = kind.weight byte + kind.weights rest :=
        List.sum_cons
      rw [parts, ← Nat.add_assoc] at room ⊢
      rw [List.map_cons, List.foldl_cons, accumulate_eq, term_byte,
        combine_double sums (by omega), ih _ room]
  have whole := run 0 (by omega)
  rwa [Nat.zero_add] at whole

/-- Sums of bytes split wherever they are exact. -/
theorem splits_bytes (sums : kind ≠ .inf) {samples : List UInt8}
    (short : kind.weights samples < 2 ^ 53) : kind.Splits samples := by
  -- A sum that is exact for the whole is exact for both parts.
  intro front rest cut
  have room := kind.weights_le_of_prefix cut
  rw [total_bytes sums (by omega)]
  rw [weights_append] at room ⊢
  rw [total_bytes sums (by omega), total_bytes sums (by omega), combine_double sums (by omega)]

end Bytes

end NormKind

section

variable {α : Type} {channels : Nat}

/-- Lists joined have at most as many entries as their number times a bound on each. -/
theorem length_flatMap_le {ι : Type} (parts : ι → List α) (positions : List ι) {bound : Nat}
    (each : ∀ position ∈ positions, (parts position).length ≤ bound) :
    (positions.flatMap parts).length ≤ positions.length * bound := by
  rw [List.length_flatMap]
  -- Each part is bounded, so their joined length is by the count of the parts.
  have sum := List.sum_le_card_nsmul (positions.map fun position => (parts position).length) bound
    (by
      intro length member
      obtain ⟨position, listed, rfl⟩ := List.mem_map.mp member
      exact each position listed)
  rwa [List.length_map, smul_eq_mul] at sum

/-- A row keeps at most all of its samples. -/
theorem length_keptOf_le (width : Nat) (sample? : Nat → Nat → Option α) (counted : Nat → Bool) :
    (keptOf channels width sample? counted).length ≤ width * channels := by
  -- No more pixels are left than there are, each with at most its channels.
  have pixels : ((List.range width).filter counted).length ≤ width := by
    simpa using List.length_filter_le counted (List.range width)
  have each : ∀ x ∈ (List.range width).filter counted,
      ((List.range channels).filterMap (sample? x)).length ≤ channels := by
    intro x _
    simpa using List.length_filterMap_le (sample? x) (List.range channels)
  have samples := length_flatMap_le _ _ each
  exact samples.trans (Nat.mul_le_mul_right channels pixels)

/-- At most all samples of an image count. -/
theorem View.length_selection_le (source : View α channels) (mask : Option (View UInt8 1)) :
    (source.selection mask).length ≤
      source.layout.height * source.layout.width * channels := by
  -- A row keeps at most all of its samples.
  have each : ∀ y ∈ List.range source.layout.height,
      (source.kept mask y).length ≤ source.layout.width * channels := by
    intro y _
    exact length_keptOf_le _ _ _
  have rows := length_flatMap_le _ _ each
  rwa [List.length_range, ← Nat.mul_assoc] at rows

end

namespace NormKind

/-- In exact arithmetic the combined result of an image is that of a single pass over the samples
that count, read as rationals. -/
theorem exists_combined?_rat {α : Type} {channels limit : Nat} (kind : NormKind)
    (positive : 0 < limit) (source : View α channels) {mask : Option (View UInt8 1)}
    (masked : ∀ marks ∈ mask, source.extent = marks.extent) (number : α → ℚ) :
    ∃ image marks, source.load? = some image ∧ mask.map View.load? = marks.map some ∧
      kind.combined? (image.map number) marks limit =
        some (kind.total ((source.selection mask).map number)) := by
  -- The image of numbers is reduced like any other, and exact partial results can be regrouped.
  obtain ⟨image, marks, loaded, height, width, marked, reads⟩ := exists_load?_marked source masked
  rw [← height, ← width] at marked reads
  refine ⟨image, marks, loaded, marked.loaded, ?_⟩
  have numbers : ∀ y x c, y < image.height → x < image.width → c < channels →
      (image.map number).at? y x c = (source.sample? y x c).map number := by
    intro y x c inImage inRow inPixel
    rw [Grid.at?_map, reads y x c inImage inRow inPixel]
  have markedNumbers : Marks mask marks (image.map number).height (image.map number).width := marked
  have tall : 0 < (image.map number).height := height ▸ source.fits.height_pos
  obtain ⟨groups, divided, -, combined⟩ :=
    kind.exists_combined?_reduced markedNumbers numbers tall positive
  rw [combined, Splits.reduced_eq_total divided ((regroups_rat kind).splits _)]
  -- Reading samples as numbers keeps their order, row by row and pixel by pixel.
  rw [View.selection, List.map_flatMap, ← height]
  have row : ∀ y, (source.kept mask y).map number = keptOf channels image.width
      (fun x c => (source.sample? y x c).map number) (counts mask y) := by
    intro y
    simp only [View.kept, keptOf, List.map_flatMap, List.map_filterMap, width]
  simp only [row]
  rfl

variable {limit : Nat} {kind : NormKind} {groups : RowGroups} {row : Nat → List UInt8}

/-- While all samples together have an exact sum, so have those of a beginning of a group, and so
have those of some first groups. -/
theorem partial_sums (sums : kind ≠ .inf) {height : Nat}
    (divided : RowGroups.of? height limit = some groups)
    (short : kind.weights ((List.range height).flatMap row) < 2 ^ 53) (count : Nat) :
    (∀ group < groups.count, ∃ n < 2 ^ 53,
      kind.total ((groupOf groups row group).take count) = double n) ∧
    ∃ n < 2 ^ 53, ((kind.partials groups row).take count).foldl kind.combine zero = double n := by
  rw [← flatMap_groupOf divided] at short
  constructor
  · intro group inCount
    -- A beginning of a group ends a beginning of all samples.
    have cut := first_groups_begin row (Nat.succ_le_of_lt inCount)
    rw [List.range_succ, List.flatMap_append, List.flatMap_singleton] at cut
    have whole := kind.weights_le_of_prefix cut
    have start := kind.weights_le_of_prefix (List.take_prefix count (groupOf groups row group))
    rw [weights_append] at whole
    exact ⟨_, by omega, total_bytes sums (by omega)⟩
  · -- Groups past the last one add nothing.
    have within : min count groups.count ≤ groups.count := Nat.min_le_right _ _
    have all : (kind.partials groups row).length = groups.count := by simp [partials]
    have cut := kind.weights_le_of_prefix (first_groups_begin row within)
    have joined := (splits_bytes sums short).foldl_partials within
    rw [List.take_eq_take_min, all, joined]
    exact ⟨_, by omega, total_bytes sums (by omega)⟩

end NormKind

/-- The groups list every row once and in order.  So the norm is that of a single pass over the
samples that count: exactly in exact arithmetic, and bit for bit for the largest absolute value and
for sums of bytes that have at most 53 digits, all of whose partial sums are natural numbers. -/
theorem norm_eq_sequential {depth : Depth} {channels limit : Nat} (kind : NormKind)
    (positive : 0 < limit) (source : View depth.Sample channels) (mask : Option (View UInt8 1))
    (accepted : checkChannels channels = .ok ())
    (masked : ∀ marks ∈ mask, source.extent = marks.extent) :
    (∀ height, 0 < height → ∃ groups, RowGroups.of? height limit = some groups ∧
      (List.range groups.count).flatMap groups.rows = List.range height) ∧
    (∀ number : depth.Sample → ℚ, ∃ image marks, source.load? = some image ∧
      mask.map View.load? = marks.map some ∧
      kind.combined? (image.map number) marks limit =
        some (kind.total ((source.selection mask).map number))) ∧
    (kind = .inf ∨ depth = .byte ∧
        255 * 255 * (source.layout.height * source.layout.width * channels) < 2 ^ 53 →
      norm kind limit source mask = .ok (some (kind.finish (kind.total (source.selection mask))))) ∧
    (kind ≠ .inf → depth = .byte →
        255 * 255 * (source.layout.height * source.layout.width * channels) < 2 ^ 53 →
      ∀ groups, RowGroups.of? source.layout.height limit = some groups → ∀ count,
        (∀ group < groups.count, ∃ n < 2 ^ 53, kind.total
          ((NormKind.groupOf groups (source.kept mask) group).take count) = double n) ∧
        ∃ n < 2 ^ 53, ((kind.partials groups (source.kept mask)).take count).foldl kind.combine
          zero = double n) := by
  have room := Nat.mul_le_mul_left (255 * 255) (source.length_selection_le mask)
  refine ⟨?_, kind.exists_combined?_rat positive source masked, ?_, ?_⟩
  · intro height tall
    obtain ⟨groups, divided, -⟩ := RowGroups.exists_of? tall positive
    exact ⟨groups, divided, RowGroups.flatMap_rows_eq_range divided⟩
  · intro order
    -- The samples split: maxima can be regrouped, and so can exact sums.
    have splits : kind.Splits (source.selection mask) := by
      rcases order with rfl | ⟨rfl, short⟩
      · exact NormKind.regroups_largest.splits _
      · by_cases largest : kind = .inf
        · subst largest
          exact NormKind.regroups_largest.splits _
        · have bound := kind.weights_le (source.selection mask)
          exact NormKind.splits_bytes largest (by omega)
    obtain ⟨groups, divided, -, reduces⟩ := exists_norm_reduced kind positive source mask accepted
      masked
    rw [reduces, NormKind.Splits.reduced_eq_total divided splits]
    rfl
  · intro sums byte short groups divided
    subst byte
    have bound := kind.weights_le (source.selection mask)
    exact NormKind.partial_sums sums divided (Nat.lt_of_le_of_lt (bound.trans room) short)

/-- Three rows of one byte. -/
def threeRows : View Depth.byte.Sample 1 := ⟨⟨3, 1, 1⟩, #[3, 4, 12], Layout.check_eq_ok_iff.mp rfl⟩

/-- Three rows have the same norms in two groups and in three: their largest value, their sum and
the root of 9 + 16 + 144. -/
theorem norm_eq_sequential_threeRows : 0 < 2 ∧ 0 < 3 ∧ checkChannels 1 = .ok () ∧
    255 * 255 * (threeRows.layout.height * threeRows.layout.width * 1) < 2 ^ 53 ∧
    threeRows.selection none = [3, 4, 12] ∧
    (norm .inf 2 threeRows none = .ok (some 12) ∧ norm .inf 3 threeRows none = .ok (some 12)) ∧
    (norm .l1 2 threeRows none = .ok (some 19) ∧ norm .l1 3 threeRows none = .ok (some 19)) ∧
    norm .l2 2 threeRows none = .ok (some 13) ∧ norm .l2 3 threeRows none = .ok (some 13) := by
  have short : 255 * 255 * (threeRows.layout.height * threeRows.layout.width * 1) < 2 ^ 53 := by
    decide
  -- What a single pass over the samples finds is the norm for any number of groups.
  have regroup : ∀ (kind : NormKind) (value : Float),
      kind.finish (kind.total (threeRows.selection none)) = value →
      norm kind 2 threeRows none = .ok (some value) ∧
        norm kind 3 threeRows none = .ok (some value) := by
    rintro kind _ rfl
    obtain ⟨-, -, two, -⟩ := @norm_eq_sequential .byte 1 2 kind (by decide) threeRows none rfl nofun
    obtain ⟨-, -, three, -⟩ :=
      @norm_eq_sequential .byte 1 3 kind (by decide) threeRows none rfl nofun
    exact ⟨two (.inr ⟨rfl, short⟩), three (.inr ⟨rfl, short⟩)⟩
  exact ⟨by decide, by decide, rfl, short, rfl, regroup .inf 12 (by decide +kernel),
    regroup .l1 19 (by decide +kernel), regroup .l2 13 (by decide +kernel)⟩

end Raster
