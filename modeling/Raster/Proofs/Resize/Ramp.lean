import Raster.Proofs.Border.Periodic
import Raster.Proofs.Resize.Centres
import Raster.Proofs.Resize.Written

/-!
Blending onto twice the extent and back, in exact arithmetic.  Main statements:
`Linear.roundTrip_eq`, what becomes of the values along an axis, and `linear_round_trip_ramp`, a
ramp changes in its first and last rows and columns alone.
-/

namespace Raster

namespace Tap

/-- The value that a tap gives along one axis. -/
def between (tap : Tap ℚ) (value : Nat → ℚ) : ℚ := mix tap.weight (value tap.low) (value tap.high)

/-- A sum of a value for the row and one for the column is blended along each axis apart. -/
theorem value_add (row column : Tap ℚ) (rows columns : Nat → ℚ) (c : Nat) :
    value (fun y x _ => rows y + columns x) row column c =
      row.between rows + column.between columns := by
  -- Mixing twice is linear in the four samples.
  show mix row.weight
    (mix column.weight (rows row.low + columns column.low) (rows row.low + columns column.high))
    (mix column.weight (rows row.high + columns column.low) (rows row.high + columns column.high)) =
      row.between rows + column.between columns
  simp only [between, mix_rat]
  ring

end Tap

namespace Linear

variable {size i : Nat}

/-- The values along an axis that is resized. -/
def resampled (sourceSize targetSize : Nat) (value : Nat → ℚ) (d : Nat) : ℚ :=
  (tap ℚ sourceSize targetSize d).between value

/-- Before the first sample of an axis the first one is repeated. -/
theorem fold_before (inside : i < size) : Border.replicate.fold size ((i : ℤ) - 1) = i - 1 := by
  -- Only the sample before the first one lies off the axis.
  rw [Border.fold_of_periodOf_eq_none (Nat.zero_lt_of_lt inside)
    (by simp [WindowAxis.periodOf])]
  omega

/-- After the last sample of an axis the last one is repeated. -/
theorem fold_after (inside : i < size) :
    Border.replicate.fold size ((i : ℤ) + 1) = min (i + 1) (size - 1) := by
  -- Only the sample behind the last one lies off the axis.
  rw [Border.fold_of_periodOf_eq_none (Nat.zero_lt_of_lt inside)
    (by simp [WindowAxis.periodOf])]
  omega

/-- A destination mixes the samples on either side of its centre. -/
theorem resampled_eq {sourceSize targetSize d : Nat} {place : ℤ} {share : ℚ}
    (centre : position ℚ sourceSize targetSize d = place + share) (low : 0 ≤ share)
    (high : share < 1) (value : Nat → ℚ) : resampled sourceSize targetSize value d =
      value (Border.replicate.fold sourceSize place) * (1 - share) +
        value (Border.replicate.fold sourceSize (place + 1)) * share := by
  -- The share is what the floor leaves, since it is at least zero and below one.
  have floor : ⌊place + share⌋ = place := by
    rw [Int.floor_eq_iff]
    constructor <;> linarith
  have fract : Int.fract (place + share) = share := by rw [Int.fract, floor, add_sub_cancel_left]
  rw [resampled, tap_rat, centre, floor, fract]
  rfl

/-- Two destinations of a doubled axis lie a quarter of a sample before and after a sample. -/
theorem position_doubled (inside : i < size) :
    position ℚ size (size * 2) (2 * i) = i - 1 / 4 ∧
      position ℚ size (size * 2) (2 * i + 1) = i + 1 / 4 := by
  -- Two destinations share a sample, a quarter to either side of its centre.
  have samples : (size : ℚ) ≠ 0 := by exact_mod_cast (Nat.zero_lt_of_lt inside).ne'
  rw [position_rat, position_rat]
  push_cast
  constructor <;> field_simp <;> ring

/-- A destination before its sample has a quarter of the sample before. -/
theorem resampled_doubled_even (value : Nat → ℚ) (inside : i < size) :
    resampled size (size * 2) value (2 * i) = (value (i - 1) + 3 * value i) / 4 := by
  -- A quarter before a sample is three quarters of the way to it, also before the first sample.
  have centre : position ℚ size (size * 2) (2 * i) = ((i - 1 : ℤ) : ℚ) + 3 / 4 := by
    rw [(position_doubled inside).1]
    push_cast
    ring
  rw [resampled_eq centre (by norm_num) (by norm_num), fold_before inside, sub_add_cancel,
    Border.fold_of_lt _ inside]
  ring

/-- A destination after its sample has a quarter of the sample after. -/
theorem resampled_doubled_odd (value : Nat → ℚ) (inside : i < size) :
    resampled size (size * 2) value (2 * i + 1) =
      (3 * value i + value (min (i + 1) (size - 1))) / 4 := by
  -- The later of the two lies a quarter behind its sample.
  have centre : position ℚ size (size * 2) (2 * i + 1) = ((i : ℤ) : ℚ) + 1 / 4 := by
    rw [(position_doubled inside).2, Int.cast_natCast]
  rw [resampled_eq centre (by norm_num) (by norm_num), fold_after inside,
    Border.fold_of_lt _ inside]
  ring

/-- A destination of a halved axis has both of its samples in equal shares. -/
theorem resampled_halved (value : Nat → ℚ) (inside : i < size) :
    resampled (size * 2) size value i = (value (2 * i) + value (2 * i + 1)) / 2 := by
  -- The centre lies half way between the two copies.
  rw [resampled, tap_half_rat inside]
  simp only [Tap.between, Tap.mix_rat]
  ring

/-- The values along an axis that is doubled and halved again. -/
def roundTrip (size : Nat) (value : Nat → ℚ) : Nat → ℚ :=
  resampled (size * 2) size (resampled size (size * 2) value)

/-- Doubling an axis and halving it again leaves six eighths of a sample and gives an eighth each to
its neighbours, the edge samples being their own outer neighbours. -/
theorem roundTrip_eq (value : Nat → ℚ) (inside : i < size) : roundTrip size value i =
    (value (i - 1) + 6 * value i + value (min (i + 1) (size - 1))) / 8 := by
  -- Shrinking takes the mean of the two destinations that enlarging gave the sample.
  rw [roundTrip, resampled_halved _ inside, resampled_doubled_even value inside,
    resampled_doubled_odd value inside]
  ring

end Linear

/-- What the first and the last sample of an axis are off by, where a ramp of the given slope is
doubled and halved again. -/
def edgeShift (slope : ℚ) (i size : Nat) : ℚ :=
  -- An axis of one sample has both edges at once, and they cancel.
  if size = 1 then 0
  else if i = 0 then slope / 8
  else if i = size - 1 then -(slope / 8)
  else 0

/-- A ramp along an axis is off by the shift of its edges alone. -/
theorem Linear.roundTrip_ramp {size i : Nat} (slope start : ℚ) (inside : i < size) :
    roundTrip size (fun j => slope * j + start) i =
      slope * i + start + edgeShift slope i size := by
  rw [roundTrip_eq _ inside, edgeShift]
  split_ifs with single first last
  · -- A single sample is its own neighbour on both sides.
    obtain rfl : i = 0 := by omega
    subst single
    norm_num
    ring
  · -- The first sample is its own neighbour before it, the last one after it.
    obtain rfl := first
    have next : min (0 + 1) (size - 1) = 1 := by omega
    rw [next]
    norm_num
    ring
  · have next : min (i + 1) (size - 1) = i := by omega
    rw [next, Nat.cast_sub (by omega)]
    push_cast
    ring
  · -- Elsewhere the neighbours are off by the slope on either side.
    have next : min (i + 1) (size - 1) = i + 1 := by omega
    rw [next, Nat.cast_sub (by omega)]
    push_cast
    ring

namespace Linear

variable {rows columns : Nat → ℚ}

/-- An image whose samples are a value for the row and one for the column stays one. -/
theorem exists_resize?_sum {image : Grid ℚ 1} (shows : image.Shows fun y x _ => rows y + columns x)
    (tall : 0 < image.height) (wide : 0 < image.width) (target : Extent) :
    ∃ resized, Resampling.linear.resize? image target = some resized ∧
      resized.height = target.height ∧ resized.width = target.width ∧
      resized.Shows fun y x _ => resampled image.height target.height rows y +
        resampled image.width target.width columns x := by
  -- A sum of two axes is resampled axis by axis.
  obtain ⟨resized, built, height, width, values⟩ := exists_resize? shows tall wide target
  simp only [Tap.value_add] at values
  exact ⟨resized, built, height, width, values⟩

/-- So does what a view shows. -/
theorem exists_resize_sum {source : View ℚ 1}
    (shows : source.Shows fun y x _ => rows y + columns x) (target : View ℚ 1) :
    ∃ written, resize .linear source target = .ok (some written) ∧
      written.layout = target.layout ∧
      written.Shows fun y x _ => resampled source.layout.height target.layout.height rows y +
        resampled source.layout.width target.layout.width columns x := by
  -- The image that is loaded has the rows and columns of the source.
  refine exists_resize_of_image rfl shows fun image height width tall wide imageShows => ?_
  rw [← height, ← width]
  exact exists_resize?_sum imageShows tall wide target.extent

/-- Doubling and halving an image does so along each axis apart. -/
theorem exists_round_trip? {image : Grid ℚ 1}
    (shows : image.Shows fun y x _ => rows y + columns x) (tall : 0 < image.height)
    (wide : 0 < image.width) : ∃ larger back,
      Resampling.linear.resize? image ⟨image.height * 2, image.width * 2⟩ = some larger ∧
      Resampling.linear.resize? larger ⟨image.height, image.width⟩ = some back ∧
      back.height = image.height ∧ back.width = image.width ∧
      back.Shows fun y x _ => roundTrip image.height rows y + roundTrip image.width columns x := by
  -- The larger image is again a sum of two axes, and so is what comes back.
  obtain ⟨larger, enlarged, height, width, values⟩ := exists_resize?_sum shows tall wide
    ⟨image.height * 2, image.width * 2⟩
  obtain ⟨back, reduced, sameHeight, sameWidth, others⟩ := exists_resize?_sum values
    (by rw [height]; exact Nat.mul_pos tall two_pos) (by rw [width]; exact Nat.mul_pos wide two_pos)
    ⟨image.height, image.width⟩
  rw [height, width] at others
  exact ⟨larger, back, enlarged, reduced, sameHeight, sameWidth, others⟩

/-- So does doubling a view onto another and halving that onto a third. -/
theorem exists_round_trip {source double target : View ℚ 1}
    (shows : source.Shows fun y x _ => rows y + columns x)
    (halves : source.extent.Halves double.extent) (same : target.extent = source.extent) :
    ∃ larger written, resize .linear source double = .ok (some larger) ∧
      resize .linear larger target = .ok (some written) ∧ written.layout = target.layout ∧
      written.Shows fun y x _ =>
        roundTrip source.layout.height rows y + roundTrip source.layout.width columns x := by
  -- The sides of the views are those of their extents.
  have doubledRows : double.layout.height = source.layout.height * 2 := halves.rows
  have doubledColumns : double.layout.width = source.layout.width * 2 := halves.columns
  have height : target.layout.height = source.layout.height := congrArg Extent.height same
  have width : target.layout.width = source.layout.width := congrArg Extent.width same
  obtain ⟨larger, enlarged, doubled, values⟩ := exists_resize_sum shows double
  obtain ⟨written, reduced, layout, others⟩ := exists_resize_sum values target
  rw [doubled, doubledRows, doubledColumns, height, width] at others
  exact ⟨larger, written, enlarged, reduced, layout, others⟩

end Linear

/-- The samples that are read differ from a ramp by shifts of its edges alone. -/
def ShiftedRamp (a b c : ℚ) (extent : Extent) (read : Nat → Nat → Nat → Option ℚ) : Prop :=
  ∀ y x, y < extent.height → x < extent.width → ∃ value, read y x 0 = some value ∧
    value - (a * y + b * x + c) = edgeShift a y extent.height + edgeShift b x extent.width

/-- Doubling and halving both axes shifts the edges of a ramp. -/
theorem shiftedRamp_of_roundTrip {a b c : ℚ} {extent : Extent}
    {read : Nat → Nat → Nat → Option ℚ}
    (values : ∀ y x, y < extent.height → x < extent.width → read y x 0 = some
      (Linear.roundTrip extent.height (fun y => a * y + 0) y +
        Linear.roundTrip extent.width (fun x => b * x + c) x)) :
    ShiftedRamp a b c extent read := by
  -- On either axis the ramp comes back with the shift at its edges.
  intro y x inImage inRow
  refine ⟨_, values y x inImage inRow, ?_⟩
  rw [Linear.roundTrip_ramp a 0 inImage, Linear.roundTrip_ramp b c inRow]
  ring

/-- A ramp of one channel that is blended onto twice its extent and back is, in exact arithmetic,
off by an eighth of its slope in its first and last rows and columns: as an image of any extent, and
in views of any layout. -/
theorem linear_round_trip_ramp (a b c : ℚ) :
    (∀ height width, 0 < height → 0 < width → ∃ image larger back : Grid ℚ 1,
      Grid.tabulate? height width (fun y x _ => some (a * y + b * x + c)) = some image ∧
      Resampling.linear.resize? image ⟨height * 2, width * 2⟩ = some larger ∧
      Resampling.linear.resize? larger ⟨height, width⟩ = some back ∧
      ShiftedRamp a b c ⟨height, width⟩ back.at?) ∧
    ∀ {source double target : View ℚ 1}, source.Shows (fun y x _ => a * y + b * x + c) →
      source.extent.Halves double.extent → target.extent = source.extent →
      ∃ larger written, resize .linear source double = .ok (some larger) ∧
        resize .linear larger target = .ok (some written) ∧ written.layout = target.layout ∧
        ShiftedRamp a b c source.extent written.sample? := by
  -- The ramp is a value for the row and one for the column.
  have parts : ∀ y x : Nat, a * y + b * x + c = (a * y + 0) + (b * x + c) := fun y x => by ring
  simp only [parts]
  constructor
  · intro height width tall wide
    obtain ⟨image, built, rfl, rfl, shows⟩ : ∃ image : Grid ℚ 1, Grid.tabulate? height width
        (fun y x _ => some ((a * y + 0) + (b * x + c))) = some image ∧ image.height = height ∧
        image.width = width ∧ image.Shows fun y x _ => (a * y + 0) + (b * x + c) :=
      Grid.exists_tabulate?_shows fun _ _ _ _ _ _ => rfl
    obtain ⟨larger, back, enlarged, reduced, height, width, values⟩ :=
      Linear.exists_round_trip? shows tall wide
    refine ⟨image, larger, back, built, enlarged, reduced, ?_⟩
    exact shiftedRamp_of_roundTrip fun y x inImage inRow =>
      values y x 0 (inImage.trans_eq height.symm) (inRow.trans_eq width.symm) one_pos
  · intro source double target shows halves same
    obtain ⟨larger, written, enlarged, reduced, layout, values⟩ :=
      Linear.exists_round_trip shows halves same
    refine ⟨larger, written, enlarged, reduced, layout, ?_⟩
    -- The target has the extent of the source.
    have extent : written.extent = source.extent := (congrArg Layout.extent layout).trans same
    have height : written.layout.height = source.layout.height := congrArg Extent.height extent
    have width : written.layout.width = source.layout.width := congrArg Extent.width extent
    exact shiftedRamp_of_roundTrip fun y x inImage inRow =>
      values y x 0 (inImage.trans_eq height.symm) (inRow.trans_eq width.symm) one_pos

/-- A row of three numbers that rise by eight. -/
def risingRow : View ℚ 1 := ⟨⟨1, 3, 3⟩, #[1, 9, 17], Layout.check_eq_ok_iff.mp rfl⟩

/-- Room for two rows of six numbers, with a number of padding between them. -/
def sixColumns : View ℚ 1 := ⟨⟨2, 6, 7⟩, Array.replicate 13 0, Layout.check_eq_ok_iff.mp rfl⟩

/-- The row is a ramp. -/
theorem risingRow_shows : risingRow.Shows fun y x _ => 0 * y + 8 * x + 1 :=
  View.shows_of_row rfl (by decide +kernel)

/-- Doubled and halved, the rising row starts at two and ends at sixteen, and so does a ramp of two
rows and three columns shift at its edges. -/
theorem linear_round_trip_ramp_risingRow :
    risingRow.Shows (fun y x _ => 0 * y + 8 * x + 1) ∧
    risingRow.extent.Halves sixColumns.extent ∧
    (∃ larger written, resize .linear risingRow sixColumns = .ok (some larger) ∧
      resize .linear larger risingRow = .ok (some written) ∧
      written.sample? 0 0 0 = some 2 ∧ written.sample? 0 2 0 = some 16) ∧
    0 < 2 ∧ 0 < 3 ∧ ∃ image larger back : Grid ℚ 1,
      Grid.tabulate? 2 3 (fun y x _ => some ((1 : ℚ) * y + 8 * x + 0)) = some image ∧
      Resampling.linear.resize? image ⟨4, 6⟩ = some larger ∧
      Resampling.linear.resize? larger ⟨2, 3⟩ = some back ∧
      ShiftedRamp 1 8 0 ⟨2, 3⟩ back.at? := by
  have halves : risingRow.extent.Halves sixColumns.extent := ⟨rfl, rfl⟩
  obtain ⟨larger, written, enlarged, reduced, -, shifted⟩ :=
    (linear_round_trip_ramp 0 8 1).2 risingRow_shows halves rfl
  obtain ⟨first, readFirst, offFirst⟩ := shifted 0 0 (by decide) (by decide)
  obtain ⟨last, readLast, offLast⟩ := shifted 0 2 (by decide) (by decide)
  -- Of the row only the first and the last column are shifted.
  have start : edgeShift 0 0 1 + edgeShift 8 0 3 = 1 := by norm_num [edgeShift]
  have stop : edgeShift 0 0 1 + edgeShift 8 2 3 = -1 := by norm_num [edgeShift]
  have two : first = 2 := by
    have off := offFirst.trans start
    norm_num at off
    linarith
  have sixteen : last = 16 := by
    have off := offLast.trans stop
    norm_num at off
    linarith
  exact ⟨risingRow_shows, halves, ⟨larger, written, enlarged, reduced, two ▸ readFirst,
    sixteen ▸ readLast⟩, two_pos, three_pos,
    (linear_round_trip_ramp 1 8 0).1 2 3 two_pos three_pos⟩

end Raster
