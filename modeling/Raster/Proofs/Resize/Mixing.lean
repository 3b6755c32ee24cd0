import Raster.Proofs.Binary.Extended
import Raster.Proofs.Binary.Fraction
import Raster.Proofs.Binary.Headroom
import Raster.Proofs.Resize.Taps

/-!
Mixtures of two singles.  Main statements: `exists_reads_mix`, finite samples are mixed to a finite
one by the weight of any tap, `isFinite_mix_eq_false`, a mixture of anything else is not finite,
and `reads_mix_of_idle`, a weight of zero leaves the first of two finite samples.
-/

namespace Raster

open Binary Extended

variable {v x y : Float32} {p q w : ℚ}

namespace Tap

open Scalar (one zero)

/-- One of the two samples that a tap mixes. -/
inductive Side where
  | low
  | high
  deriving DecidableEq, Repr

/-- The source index of a side. -/
def Side.index {S : Type} (tap : Tap S) : Side → Nat
  | .low => tap.low
  | .high => tap.high

/-- The share of a side in a mixture. -/
def Side.share (weight : Float32) : Side → Float32
  | .low => one - weight
  | .high => weight

/-- The side has no share in a mixture. -/
def Side.Idle (weight : Float32) (side : Side) : Prop := (side.share weight == zero) = true

instance (weight : Float32) (side : Side) : Decidable (side.Idle weight) :=
  inferInstanceAs (Decidable (_ = true))

/-- A side is idle when its share is zero. -/
theorem Side.idle_iff {side : Side} : side.Idle v ↔ meaning (side.share v) = .number 0 := by
  -- The meaning loses the sign of zero, so a share of minus zero is the case to exclude.
  rw [Idle, beq_iff, meaning_eq_number_iff.mpr reads_zero]
  constructor
  · exact And.left
  · intro same
    rw [same]
    exact ⟨rfl, nofun⟩

section Mixtures

variable {f g : Side → Float32}

/-- What a side adds to a mixture. -/
def part (v : Float32) (f : Side → Float32) (side : Side) : Extended :=
  (meaning (f side)).mul (meaning (side.share v))

/-- A mixture stands for the sum of its two parts. -/
theorem meaning_mix (v : Float32) (f : Side → Float32) :
    meaning (mix v (f .low) (f .high)) = (part v f .low).add (part v f .high) := by
  -- The scalar operations are the singles' own, so only the definitions of the parts remain.
  rw [mix, meaning_add, meaning_mul, meaning_mul]
  rfl

/-- Mixtures of the same parts stand for the same. -/
theorem meaning_mix_congr (same : ∀ side, part v f side = part v g side) :
    meaning (mix v (f .low) (f .high)) = meaning (mix v (g .low) (g .high)) := by
  rw [meaning_mix, meaning_mix, same, same]

/-- A part that is NaN makes the mixture NaN. -/
theorem meaning_mix_eq_nan {side : Side} (nan : part v f side = .nan) :
    meaning (mix v (f .low) (f .high)) = .nan := by
  rw [meaning_mix]
  -- A blend adds its two products, and NaN on either side of a sum stays.
  cases side with
  | low => rw [nan, nan_add]
  | high => rw [nan, add_nan]

/-- A mixture of samples that are not all finite is not finite. -/
theorem isFinite_mix_eq_false {side : Side} (endless : (f side).isFinite = false) :
    (mix v (f .low) (f .high)).isFinite = false := by
  rw [← Bool.not_eq_true, isFinite_iff] at endless ⊢
  rintro ⟨q, read⟩
  -- A number as a sum has numbers as its parts, and these have numbers as their factors.
  rw [← meaning_eq_number_iff, meaning_mix] at read
  obtain ⟨⟨p, low⟩, r, high⟩ := add_eq_number read
  refine endless ?_
  cases side with
  | low => exact (mul_eq_number low).1.imp fun _ => meaning_eq_number_iff.mp
  | high => exact (mul_eq_number high).1.imp fun _ => meaning_eq_number_iff.mp

/-- An idle side whose sample is not finite makes the mixture NaN. -/
theorem meaning_mix_of_idle {side : Side} (idle : side.Idle v)
    (endless : (f side).isFinite = false) :
    meaning (mix v (f .low) (f .high)) = .nan := by
  -- The side that counts for nothing is the one that spoils the blend.
  refine meaning_mix_eq_nan (show part v f side = .nan from ?_)
  rw [part, Side.idle_iff.mp idle]
  -- What is not finite reads as no number: zero times it is NaN.
  rw [← Bool.not_eq_true, isFinite_iff] at endless
  exact mul_zero_of_endless (mt (Exists.imp fun _ => meaning_eq_number_iff.mp) endless)

/-- An idle side whose sample is finite adds nothing. -/
theorem part_of_idle {side : Side} (idle : side.Idle v) (finite : (f side).isFinite = true) :
    part v f side = .number 0 := by
  -- A finite sample reads as a number, and zero times a number is zero.
  obtain ⟨p, read⟩ := isFinite_iff.mp finite
  rw [part, Side.idle_iff.mp idle, meaning_eq_number_iff.mpr read, number_mul_zero]

end Mixtures

/-- A weight that taps can have: a number from zero to one, or NaN. -/
def Portion (v : Float32) : Prop := meaning v = .nan ∨ ∃ w, Reads v w ∧ 0 ≤ w ∧ w ≤ 1

/-- The share that a weight leaves, which adds up to one with it, up to rounding. -/
theorem reads_rest (read : Reads v w) (low : 0 ≤ w) (high : w ≤ 1) :
    ∃ u, Reads (one - v) u ∧ 0 ≤ u ∧ u ≤ 1 ∧ u + w ≤ 1 + 1 / 2 ^ 25 := by
  -- The difference is rounded once, to a number that still lies between zero and one.
  obtain ⟨rest, least, most⟩ :=
    reads_pack_unit (Denotes.sub reads_one read) (by linarith) (by linarith)
  refine ⟨nearest32 (1 - w), rest, least, most, ?_⟩
  -- Below one the last place is the 24th, and rounding moves by half of it at most.
  rcases low.eq_or_lt with rfl | positive
  · have one : nearest32 (1 - 0) = 1 := by
      rw [sub_zero]
      exact Denotes.nearest_eq reads_one
    rw [one]
    norm_num
  · have moved := nearest32_near (q := 1 - w) (k := 0) (by linarith)
      (by rw [zpow_zero]; linarith) (by norm_num)
    have above := (abs_le.mp moved).2
    norm_num at above ⊢
    linarith

/-- Finite samples are mixed to a finite one. -/
theorem exists_reads_mix (portion : Reads v w) (low : 0 ≤ w) (high : w ≤ 1) (first : Reads x p)
    (second : Reads y q) : ∃ r, Reads (mix v x y) r := by
  obtain ⟨u, rest, least, most, near⟩ := reads_rest portion low high
  have heldRest : nearest32 u = u := Denotes.nearest_eq rest
  have heldWeight : nearest32 w = w := Denotes.nearest_eq portion
  -- Neither of the parts is larger than its sample can be.
  have limit : ∀ {a t : ℚ}, |a| ≤ largest32 → 0 ≤ t → t ≤ 1 → |nearest32 (a * t)| < 2 ^ 128 := by
    intro a t size nonneg unit
    refine abs_nearest32_lt ?_
    rw [abs_mul, abs_of_nonneg nonneg]
    calc |a| * t ≤ largest32 * 1 :=
          mul_le_mul size unit nonneg ((abs_nonneg a).trans size)
      _ < 2 ^ 128 - 2 ^ 103 := by norm_num [largest32]
  have lower := first.mul rest (limit first.abs_le_largest least most)
  have upper := second.mul portion (limit second.abs_le_largest low high)
  exact ⟨_, lower.add upper (abs_weighted_lt first.abs_le_largest second.abs_le_largest heldRest
    heldWeight least low most high near)⟩

/-- A weight of zero leaves the first of two finite samples. -/
theorem reads_mix_of_idle (idle : Reads v 0) (first : Reads x p) (second : Reads y q) :
    Reads (mix v x y) p := by
  have rest : Reads (one - v) 1 := by
    obtain ⟨read, -, -⟩ := reads_pack_unit (Denotes.sub reads_one idle) (by norm_num) (by norm_num)
    rw [sub_zero, nearest32, Denotes.nearest_eq reads_one] at read
    exact read
  -- The first sample times one and the second times zero are not rounded, nor is their sum.
  have kept : (meaning x).mul (meaning (one - v)) = .number p := by
    rw [meaning_eq_number_iff.mpr first, meaning_eq_number_iff.mpr rest, Extended.mul, mul_one,
      rounded_of_reads first]
  have nothing : (meaning y).mul (meaning v) = .number 0 := by
    rw [meaning_eq_number_iff.mpr second, meaning_eq_number_iff.mpr idle, number_mul_zero]
  rw [← meaning_eq_number_iff, mix, meaning_add, meaning_mul, meaning_mul, kept, nothing,
    Extended.add, add_zero, rounded_of_reads first]

end Tap

namespace Linear

/-- The weight of a tap is what the position of its destination has above its floor. -/
theorem portion_weight (sourceSize targetSize d : Nat) :
    Tap.Portion (tap Float sourceSize targetSize d).weight :=
  (fraction_cases_double _).imp_left meaning_of_notANumber

end Linear

namespace Area.Growth

/-- The weight of a tap is what the reach of its destination has above its floor, or zero. -/
theorem portion_weight (sourceSize targetSize d : Nat) :
    Tap.Portion (tap Float sourceSize targetSize d).weight := by
  have zeroShare : Tap.Portion (Scalar.zero : Float32) := .inr ⟨0, reads_zero, by norm_num⟩
  unfold tap
  dsimp only
  split
  -- The last sample is taken alone.
  · exact zeroShare
  -- Elsewhere only a destination that reaches past its sample has a share of the next one.
  · dsimp only
    split
    · exact (fraction_cases_single _).imp_left meaning_of_notANumber
    · exact zeroShare

end Area.Growth

end Raster
