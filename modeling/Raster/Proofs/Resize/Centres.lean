import Raster.Proofs.Binary.Double
import Raster.Proofs.Resize.Taps

/-!
Where bilinear resizing places the centres of destinations.  Main statements: `tap_rat`, the exact
tap of a destination, and `tap_whole`, the tap that doubles give where every destination has a whole
number of samples.
-/

namespace Raster

/-- A target has half of the rows and half of the columns of a source. -/
structure Extent.Halves (target source : Extent) : Prop where
  rows : source.height = target.height * 2
  columns : source.width = target.width * 2

namespace Linear

open Binary
open Scalar (half ofNat)

variable {sourceSize targetSize factor d : Nat}

/-- The centre of a destination in exact arithmetic. -/
theorem position_rat (sourceSize targetSize d : Nat) :
    position ℚ sourceSize targetSize d = (d + 1 / 2) * (sourceSize / targetSize) - 1 / 2 := by
  -- Halves are quotients here, and nothing is rounded.
  have centre : (half : ℚ) = 1 / 2 := by norm_num [half, ofNat]
  rw [position, centre]
  rfl

/-- In exact arithmetic a whole number is truncated to itself on either side of zero. -/
theorem toCoordinate_floor (x : ℚ) : Wide.toCoordinate (Scalar.floor x) = ⌊x⌋ := by
  -- A floor is a whole number, so truncating it changes nothing on either side of zero.
  have up : (⌊x⌋ : ℚ).ceil = ⌈(⌊x⌋ : ℚ)⌉ := Rat.ceil_eq_neg_floor_neg _
  show (if (⌊x⌋ : ℚ) < 0 then (⌊x⌋ : ℚ).ceil else ⌊(⌊x⌋ : ℚ)⌋) = ⌊x⌋
  rw [up, Int.ceil_intCast, Int.floor_intCast, ite_self]

/-- In exact arithmetic a destination takes the samples on either side of its centre, and the second
has the share of the way to it. -/
theorem tap_rat (sourceSize targetSize d : Nat) : tap ℚ sourceSize targetSize d =
    { low := Border.replicate.fold sourceSize ⌊position ℚ sourceSize targetSize d⌋
      high := Border.replicate.fold sourceSize (⌊position ℚ sourceSize targetSize d⌋ + 1)
      weight := Int.fract (position ℚ sourceSize targetSize d) } := by
  -- The tap is read off the position, floor, fraction and all.
  simp only [tap, toCoordinate_floor]
  rfl

/-- Twice the source coordinate of the centre of a destination to which `factor` samples belong. -/
def doubledCentre (factor d : Nat) : Nat := (2 * d + 1) * factor - 1

/-- The centre of a destination lies half a destination after its start, and half a sample before
that as samples are counted from their centres. -/
theorem centre_eq (positive : 0 < factor) :
    ((d : ℚ) + 1 / 2) * factor - 1 / 2 = doubledCentre factor d / 2 := by
  -- The doubled centre is a natural number, since a destination has at least one sample.
  rw [doubledCentre, Nat.cast_sub (Nat.mul_pos (Nat.succ_pos _) positive)]
  push_cast
  ring

/-- The centre of a destination lies in one of its own samples. -/
theorem doubledCentre_lt (positive : 0 < factor) (inside : d < targetSize) :
    doubledCentre factor d / 2 < targetSize * factor ∧
      doubledCentre factor d + factor < 2 * (targetSize * factor) := by
  -- The last centre lies half a destination before the end of the axis.
  have last := Nat.mul_le_mul_right factor (show 2 * d + 2 ≤ 2 * targetSize by omega)
  rw [Nat.mul_assoc 2 targetSize, Nat.add_mul, Nat.mul_assoc] at last
  rw [doubledCentre, Nat.add_mul, Nat.mul_assoc]
  omega

/-- The whole part of half of a natural number. -/
theorem floor_half (n : Nat) : ⌊(n : ℚ) / 2⌋ = (n / 2 : Nat) := by
  exact_mod_cast Rat.floor_natCast_div_natCast n 2

/-- Half of a natural number has half of its remainder above its whole part. -/
theorem half_sub_div (n : Nat) : (n : ℚ) / 2 - (n / 2 : Nat) = (n % 2 : Nat) / 2 := by
  -- A remainder is what dividing leaves.
  have parts : (n : ℚ) = 2 * (n / 2 : Nat) + (n % 2 : Nat) := by
    exact_mod_cast (Nat.div_add_mod n 2).symm
  linarith

section Whole

variable (positive : 0 < factor) (inside : d < targetSize)
include positive inside

/-- Where every destination has a whole number of samples, it takes the sample that its centre lies
in and the next one. -/
theorem tap_whole_rat : tap ℚ (targetSize * factor) targetSize d =
    { low := doubledCentre factor d / 2
      high := Border.replicate.fold (targetSize * factor) ((doubledCentre factor d / 2 : Nat) + 1)
      weight := (doubledCentre factor d % 2 : Nat) / 2 } := by
  -- The sizes cancel, so the position is a half of a whole number.
  have destinations : (targetSize : ℚ) ≠ 0 := by exact_mod_cast (Nat.zero_lt_of_lt inside).ne'
  have position : position ℚ (targetSize * factor) targetSize d = doubledCentre factor d / 2 := by
    rw [position_rat, Nat.cast_mul, mul_div_cancel_left₀ _ destinations, centre_eq positive]
  rw [tap_rat, position, Int.fract, floor_half, Int.cast_natCast, half_sub_div,
    Border.fold_of_lt _ (doubledCentre_lt positive inside).1]

section Doubles

variable (short : targetSize * factor ≤ 2 ^ 52)
include short

/-- Doubles place the centre of such a destination without rounding. -/
theorem readsDouble_position : ReadsDouble (position Float (targetSize * factor) targetSize d)
    (doubledCentre factor d / 2) := by
  have samples := Nat.le_mul_of_pos_right targetSize positive
  obtain ⟨-, size⟩ := doubledCentre_lt positive inside
  have whole : doubledCentre factor d + 1 = (2 * d + 1) * factor :=
    Nat.sub_add_cancel (Nat.mul_pos (Nat.succ_pos _) positive)
  -- Every step gives half of a natural number, and none of these has more than 53 digits.
  have scale := readsDouble_mul_div (Nat.zero_lt_of_lt inside) positive (by omega)
  have shifted := readsDouble_div_two (n := 2 * d + 1) (by push_cast; ring) (by omega)
    ((readsDouble_double (n := d) (by omega)).add readsDouble_half)
  have scaled := readsDouble_div_two (n := (2 * d + 1) * factor) (by push_cast; ring) (by omega)
    (shifted.mul scale)
  refine readsDouble_div_two ?_ (by omega) (scaled.sub readsDouble_half)
  rw [← centre_eq positive]
  push_cast
  ring

/-- Where every destination has a whole number of samples, doubles give it the sample that its
centre lies in and the next one, with the exact share. -/
theorem tap_whole :
    (tap Float (targetSize * factor) targetSize d).low = doubledCentre factor d / 2 ∧
      (tap Float (targetSize * factor) targetSize d).high =
        Border.replicate.fold (targetSize * factor) ((doubledCentre factor d / 2 : Nat) + 1) ∧
      Reads (tap Float (targetSize * factor) targetSize d).weight
        ((doubledCentre factor d % 2 : Nat) / 2) := by
  obtain ⟨index, size⟩ := doubledCentre_lt positive inside
  have centre := readsDouble_position positive inside short
  -- The whole part of the centre has few digits, so finding it and taking it away rounds nothing.
  have whole : ((Direction.down.whole .positive ((doubledCentre factor d : ℚ) / 2) : ℤ) : ℚ) =
      (doubledCentre factor d / 2 : Nat) := congrArg Int.cast (floor_half _)
  have base := centre.wholeDouble .down (by positivity) (by
    rw [whole]
    exact moderate_natCast (by omega))
  rw [whole, nearest64_natCast (by omega)] at base
  have low : Wide.toCoordinate (Scalar.floor
      (position Float (targetSize * factor) targetSize d)) = (doubledCentre factor d / 2 : Nat) :=
    base.toCoordinate (by omega)
  have rest := readsDouble_div_two (half_sub_div _) (by omega) (centre.sub base)
  refine ⟨?_, ?_, rest.narrow_div_two (by omega)⟩
  · simp only [tap, low]
    exact Border.fold_of_lt _ index
  · simp only [tap, low]

end Doubles

end Whole

/-- On an axis that keeps its size, of at most `2 ^ 52` samples, a destination takes its own sample,
and the next one has no share. -/
theorem tap_same (inside : d < sourceSize) (short : sourceSize ≤ 2 ^ 52) :
    (tap Float sourceSize sourceSize d).low = d ∧
      Reads (tap Float sourceSize sourceSize d).weight 0 := by
  -- Onto its own extent a destination has its own centre.
  have own : doubledCentre 1 d = 2 * d := by simp [doubledCentre]
  obtain ⟨low, -, weight⟩ := tap_whole Nat.one_pos inside (by omega)
  rw [mul_one, own] at low weight
  rw [low]
  exact ⟨by omega, by simpa using weight⟩

/-- The bound is sharp: past it the last destination takes the sample before its own too. -/
example : (tap Float (2 ^ 52 + 1) (2 ^ 52 + 1) (2 ^ 52)).low = 2 ^ 52 - 1 := by decide +kernel

/-- The centre of a destination with two samples lies half a sample after the first. -/
theorem doubledCentre_two (d : Nat) :
    doubledCentre 2 d / 2 = 2 * d ∧ doubledCentre 2 d % 2 = 1 := by
  -- Between two samples the doubled centre is odd.
  rw [doubledCentre]
  omega

/-- The second sample of a destination with two samples lies on the axis. -/
theorem fold_second (inside : d < targetSize) :
    Border.replicate.fold (targetSize * 2) ((2 * d : Nat) + 1) = 2 * d + 1 := by
  exact_mod_cast Border.fold_of_lt _ (show 2 * d + 1 < targetSize * 2 by omega)

/-- On an axis that is halved, a destination takes both of its samples in equal shares. -/
theorem tap_half_rat (inside : d < targetSize) :
    tap ℚ (targetSize * 2) targetSize d = ⟨2 * d, 2 * d + 1, 1 / 2⟩ := by
  -- The centre lies half way between both samples.
  obtain ⟨low, odd⟩ := doubledCentre_two d
  rw [tap_whole_rat two_pos inside, low, odd, fold_second inside, Nat.cast_one]

/-- On an axis of at most `2 ^ 52` samples that is halved, doubles give a destination both of its
samples in equal shares. -/
theorem tap_half (inside : d < targetSize) (short : targetSize * 2 ≤ 2 ^ 52) :
    (tap Float (targetSize * 2) targetSize d).low = 2 * d ∧
      (tap Float (targetSize * 2) targetSize d).high = 2 * d + 1 ∧
      Reads (tap Float (targetSize * 2) targetSize d).weight (1 / 2) := by
  -- As in exact arithmetic, since halves of such numbers are doubles.
  obtain ⟨low, odd⟩ := doubledCentre_two d
  obtain ⟨first, second, weight⟩ := tap_whole two_pos inside short
  rw [low] at first second
  rw [odd, Nat.cast_one] at weight
  exact ⟨first, second.trans (fold_second inside), weight⟩

end Linear

end Raster
