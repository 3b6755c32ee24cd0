import Raster.Gather

/-!
Packed images: the visible samples of an image, row after row.  Main statements: `at?_tabulate?`,
a tabulated image reads back the tabulated function, and `tabulate?_isSome`, tabulating faults only
where that function does.
-/

namespace Raster

/-- An image of `height` rows, `width` pixels to a row and `channels` samples to a pixel. -/
structure Grid (α : Type) (channels : Nat) where
  height : Nat
  width : Nat
  samples : Array α
  size_samples : samples.size = height * width * channels

namespace Grid

variable {α : Type} {channels : Nat}

/-- The sample of channel `c` at pixel `x` of row `y`; a fault outside the image. -/
def at? (image : Grid α channels) (y x c : Nat) : Option α :=
  -- Without the test a column past the row's end would be read from the next row.
  if y < image.height ∧ x < image.width ∧ c < channels then
    image.samples[(y * image.width + x) * channels + c]?
  else none

/-- The image whose samples are given by position, a fault when one of them is. -/
def tabulate? (height width : Nat) (sample : Nat → Nat → Nat → Option α) :
    Option (Grid α channels) :=
  -- Samples lie row after row, pixel after pixel, channel after channel.
  match gathered : gather? (fun i => sample (i / (width * channels)) (i / channels % width)
      (i % channels)) (List.range (height * width * channels)) with
  | none => none
  | some samples => some ⟨height, width, samples.toArray, by
      simpa using length_of_gather? gathered⟩

/-- The samples of row `y`. -/
def row? (image : Grid α channels) (y : Nat) : Option (List α) :=
  gather? (fun i => image.at? y (i / channels) (i % channels))
    (List.range (image.width * channels))

/-- The position of a sample in row, pixel and channel order determines all three. -/
theorem position_parts {width y x c : Nat} (inRow : x < width) (inPixel : c < channels) :
    ((y * width + x) * channels + c) / (width * channels) = y ∧
      ((y * width + x) * channels + c) / channels % width = x ∧
      ((y * width + x) * channels + c) % channels = c := by
  -- Dividing by the pixel size leaves the pixel number, which splits into row and column.
  have pixel : ((y * width + x) * channels + c) / channels = y * width + x := by
    rw [Nat.mul_comm, Nat.mul_add_div (by omega), Nat.div_eq_of_lt inPixel, Nat.add_zero]
  have column : (y * width + x) % width = x := by
    rw [Nat.mul_comm, Nat.mul_add_mod, Nat.mod_eq_of_lt inRow]
  have row : (y * width + x) / width = y := by
    rw [Nat.mul_comm, Nat.mul_add_div (by omega), Nat.div_eq_of_lt inRow, Nat.add_zero]
  refine ⟨?_, ?_, ?_⟩
  · rw [Nat.mul_comm width, ← Nat.div_div_eq_div_mul, pixel, row]
  · rw [pixel, column]
  · rw [Nat.mul_comm, Nat.mul_add_mod, Nat.mod_eq_of_lt inPixel]

/-- The position of a visible sample lies among the samples of the image. -/
theorem position_lt {height width y x c : Nat} (inImage : y < height) (inRow : x < width)
    (inPixel : c < channels) :
    (y * width + x) * channels + c < height * width * channels := by
  -- A sample lies before the end of its pixel, and a pixel before the end of the last row.
  have pixel : y * width + x + 1 ≤ height * width := by
    have rows := Nat.mul_le_mul_right width (Nat.succ_le_of_lt inImage)
    rw [Nat.succ_mul] at rows
    omega
  have samples := Nat.mul_le_mul_right channels pixel
  rw [Nat.succ_mul] at samples
  omega

/-- A position among the samples of an image belongs to a row, a pixel and a channel of it. -/
theorem parts_of_lt {height width i : Nat} (bound : i < height * width * channels) :
    i / (width * channels) < height ∧ i / channels % width < width ∧ i % channels < channels := by
  -- An image that has a position has pixels, and its pixels have samples.
  have channelsPos : 0 < channels := Nat.pos_of_ne_zero (by rintro rfl; simp at bound)
  have widthPos : 0 < width := Nat.pos_of_ne_zero (by rintro rfl; simp at bound)
  refine ⟨?_, Nat.mod_lt _ widthPos, Nat.mod_lt _ channelsPos⟩
  rw [Nat.div_lt_iff_lt_mul (Nat.mul_pos widthPos channelsPos), ← Nat.mul_assoc]
  exact bound

variable {height width : Nat} {sample : Nat → Nat → Nat → Option α} {image : Grid α channels}

/-- A tabulated image has the extent it was asked for and holds the gathered samples. -/
theorem tabulate?_eq_some (built : tabulate? height width sample = some image) :
    image.height = height ∧ image.width = width ∧
      (List.range (height * width * channels)).map
        (fun i => sample (i / (width * channels)) (i / channels % width) (i % channels)) =
        image.samples.toList.map some := by
  unfold tabulate? at built
  split at built
  · simp at built
  · -- The extents are those given, and the samples are those gathered.
    rename_i samples gathered
    rw [Option.some.injEq] at built
    subst built
    exact ⟨rfl, rfl, gather?_eq_some_iff.mp gathered⟩

/-- A tabulated image reads back the function it was tabulated from. -/
theorem at?_tabulate? (built : tabulate? height width sample = some image) {y x c : Nat}
    (inImage : y < height) (inRow : x < width) (inPixel : c < channels) :
    image.at? y x c = sample y x c := by
  -- The sample stands at its own position in the gathered list.
  obtain ⟨sameHeight, sameWidth, same⟩ := tabulate?_eq_some built
  obtain ⟨row, column, channel⟩ := position_parts (y := y) inRow inPixel
  have within := position_lt inImage inRow inPixel
  have entry := congrArg (fun list => list[(y * width + x) * channels + c]?) same
  simp only [List.getElem?_map, List.getElem?_range within, Option.map_some, row, column,
    channel, Array.getElem?_toList] at entry
  rw [at?, if_pos ⟨by omega, by omega, inPixel⟩, sameWidth]
  cases found : image.samples[(y * width + x) * channels + c]? with
  | none => simp [found] at entry
  | some value => simpa [found] using entry.symm

/-- Tabulating gives the image of the asked extent that holds the gathered samples. -/
theorem tabulate?_eq_some_iff :
    tabulate? height width sample = some image ↔
      image.height = height ∧ image.width = width ∧
        gather? (fun i => sample (i / (width * channels)) (i / channels % width) (i % channels))
          (List.range (height * width * channels)) = some image.samples.toList := by
  constructor
  · intro built
    obtain ⟨sameHeight, sameWidth, same⟩ := tabulate?_eq_some built
    exact ⟨sameHeight, sameWidth, gather?_eq_some_iff.mpr same⟩
  · rintro ⟨sameHeight, sameWidth, gathered⟩
    -- The image is determined by its extent and its samples.
    unfold tabulate?
    split
    · rename_i fault
      simp [gathered] at fault
    · rename_i samples found
      rw [gathered, Option.some.injEq] at found
      subst found sameHeight sameWidth
      rfl

/-- Tabulating looks only at visible positions. -/
theorem tabulate?_congr {other : Nat → Nat → Nat → Option α}
    (agree : ∀ y x c, y < height → x < width → c < channels → sample y x c = other y x c) :
    (tabulate? height width sample : Option (Grid α channels)) = tabulate? height width other := by
  -- Every listed position belongs to a visible sample.
  have same : gather? (fun i => sample (i / (width * channels)) (i / channels % width)
        (i % channels)) (List.range (height * width * channels)) =
      gather? (fun i => other (i / (width * channels)) (i / channels % width)
        (i % channels)) (List.range (height * width * channels)) := by
    refine gather?_congr fun i member => ?_
    obtain ⟨row, column, channel⟩ := parts_of_lt (List.mem_range.mp member)
    exact agree _ _ _ row column channel
  exact Option.ext fun image => by rw [tabulate?_eq_some_iff, tabulate?_eq_some_iff, same]

/-- Tabulating faults only where the tabulated function does. -/
theorem tabulate?_isSome
    (total : ∀ y x c, y < height → x < width → c < channels → (sample y x c).isSome) :
    ∃ image : Grid α channels, tabulate? height width sample = some image := by
  -- Every listed position belongs to a visible sample, so all reads succeed.
  have reads : ∀ i ∈ List.range (height * width * channels),
      ∃ value, sample (i / (width * channels)) (i / channels % width) (i % channels) =
        some value := by
    intro i member
    obtain ⟨row, column, channel⟩ := parts_of_lt (List.mem_range.mp member)
    exact Option.isSome_iff_exists.mp (total _ _ _ row column channel)
  cases gathered : gather? (fun i => sample (i / (width * channels)) (i / channels % width)
      (i % channels)) (List.range (height * width * channels)) with
  | none =>
    rw [gather?_eq_none_iff] at gathered
    obtain ⟨i, member, faulty⟩ := gathered
    obtain ⟨value, found⟩ := reads i member
    simp [found] at faulty
  | some samples =>
    exact ⟨⟨height, width, samples.toArray, by simpa using length_of_gather? gathered⟩,
      tabulate?_eq_some_iff.mpr ⟨rfl, rfl, gathered⟩⟩

/-- Every visible sample can be read. -/
theorem at?_isSome (image : Grid α channels) {y x c : Nat} (inImage : y < image.height)
    (inRow : x < image.width) (inPixel : c < channels) : (image.at? y x c).isSome := by
  -- The position of a sample lies within the array, whose size is that of the extents.
  have within := position_lt inImage inRow inPixel
  rw [at?, if_pos ⟨inImage, inRow, inPixel⟩]
  simpa [image.size_samples] using within

/-- Every row of an image can be read; it holds the samples of its pixels in order. -/
theorem exists_row? (image : Grid α channels) {y : Nat} (inImage : y < image.height) :
    ∃ values, image.row? y = some values ∧ values.length = image.width * channels ∧
      ∀ k, k < image.width * channels → values[k]? = image.at? y (k / channels) (k % channels) := by
  -- A place in a row splits into a pixel and a channel.
  have reads : ∀ k, k < image.width * channels →
      (image.at? y (k / channels) (k % channels)).isSome := by
    intro k bound
    have channelsPos : 0 < channels := Nat.pos_of_ne_zero (by rintro rfl; simp at bound)
    exact image.at?_isSome inImage ((Nat.div_lt_iff_lt_mul channelsPos).mpr bound)
      (Nat.mod_lt _ channelsPos)
  cases gathered : image.row? y with
  | none =>
    obtain ⟨k, member, fault⟩ := gather?_eq_none_iff.mp gathered
    have found := reads k (List.mem_range.mp member)
    simp [fault] at found
  | some values =>
    refine ⟨values, rfl, by simpa using length_of_gather? gathered, fun k bound => ?_⟩
    have same := congrArg (·[k]?) (gather?_eq_some_iff.mp gathered)
    simp only [List.getElem?_map, List.getElem?_range bound, Option.map_some] at same
    cases found : values[k]? with
    | none => simp [found] at same
    | some value => simpa [found] using same.symm

end Grid

end Raster
