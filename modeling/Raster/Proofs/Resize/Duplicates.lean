import Raster.Proofs.Binary.Byte
import Raster.Proofs.Binary.Multiples
import Raster.Proofs.Binary.Reciprocal
import Raster.Proofs.Resize.Mixing
import Raster.Proofs.Resize.Written

/-!
Growing by whole factors.  Main statement: `resize_area_duplicates`, every sample of the target is
one source sample, the one before its own where its position is rounded to below that, and an axis
has no such place exactly when it has a single sample or its first sample but one does not slip.
-/

namespace Raster

open Binary

namespace Area.Growth

variable {sourceSize factor d : Nat}

/-- The step from one destination to the next on the source axis, as a double. -/
def step64 (factor : Nat) : ℚ := nearest64 (1 / factor)

/-- Where a destination lies on the source axis, in doubles. -/
def position64 (factor d : Nat) : ℚ := nearest64 (d * step64 factor)

/-- The position of a destination is rounded to below the sample that it belongs to. -/
def Slips (factor d : Nat) : Prop := position64 factor d < (d / factor : Nat)

instance : Decidable (Slips factor d) := inferInstanceAs (Decidable (_ < _))

/-- The source sample at the position of a destination. -/
def duplicated (factor d : Nat) : Nat := if Slips factor d then d / factor - 1 else d / factor

/-- An axis that grows by a whole factor, to fewer samples than doubles have places. -/
structure Grows (sourceSize factor : Nat) : Prop where
  source_pos : 0 < sourceSize
  -- All numbers of destinations are doubles, with room for a half below each.
  factor_pos : 0 < factor
  short : sourceSize * factor < 2 ^ 52

namespace Grows

/-- The factor is not larger than the number of destinations. -/
theorem factor_lt (grows : Grows sourceSize factor) : factor < 2 ^ 52 :=
  (Nat.le_mul_of_pos_left factor grows.source_pos).trans_lt grows.short

/-- A whole factor of steps is nearly one sample. -/
theorem step_near (grows : Grows sourceSize factor) :
    |factor * step64 factor - 1| ≤ 1 / 2 ^ 53 :=
  abs_mul_reciprocal_sub_one_le .binary64 (by decide) grows.factor_pos grows.factor_lt.le

/-- Before rounding, a destination lies within a small part of its distance from its place. -/
theorem mul_step_bounds (grows : Grows sourceSize factor) (d : Nat) :
    (d : ℚ) * (1 - 1 / 2 ^ 53) ≤ factor * (d * step64 factor) ∧
      factor * (d * step64 factor) ≤ d * (1 + 1 / 2 ^ 53) := by
  -- The step is one part in 2 ^ 53 off, so its multiples are as much.
  obtain ⟨low, high⟩ := abs_le.mp grows.step_near
  have number : (0 : ℚ) ≤ d := Nat.cast_nonneg d
  constructor <;> nlinarith

/-- A whole number that a destination does not lie below before rounding, it does not lie below
after rounding either. -/
theorem le_position (grows : Grows sourceSize factor) (inside : d < sourceSize * factor) {m : Nat}
    (order : m * factor + d / 2 ^ 53 ≤ (d : ℚ)) : m ≤ position64 factor d := by
  -- The whole number is a double, so rounding does not cross it.
  have positive : (0 : ℚ) < factor := by exact_mod_cast grows.factor_pos
  obtain ⟨low, -⟩ := grows.mul_step_bounds d
  have number : (0 : ℚ) ≤ d := Nat.cast_nonneg d
  have below : m * factor ≤ d := by
    have least : 0 ≤ (d : ℚ) / 2 ^ 53 := by positivity
    have whole : (m * factor : ℚ) ≤ d := by linarith
    exact_mod_cast whole
  have small : m ≤ d := (Nat.le_mul_of_pos_right m grows.factor_pos).trans below
  refine natCast_le_nearest64 (by have := grows.short; omega) ?_
  refine le_of_mul_le_mul_left ?_ positive
  linarith

/-- Only the first destination of a sample can slip below it. -/
theorem dvd_of_slips (grows : Grows sourceSize factor) (inside : d < sourceSize * factor)
    (slips : Slips factor d) : factor ∣ d ∧ 0 < d := by
  constructor
  · -- A later destination is farther behind the first one than rounding can take it back.
    by_contra later
    have part : d / factor * factor + 1 ≤ d := by
      have := Nat.div_add_mod' d factor
      have := Nat.emod_pos_of_not_dvd later
      omega
    have part : ((d / factor : Nat) : ℚ) * factor + 1 ≤ d := by exact_mod_cast part
    have short : (d : ℚ) ≤ 2 ^ 52 := by exact_mod_cast (inside.trans grows.short).le
    refine absurd (grows.le_position inside ?_) (not_le.mpr slips)
    linarith
  · apply Nat.pos_of_ne_zero
    rintro rfl
    simp [Slips, position64] at slips

/-- Rounding takes no destination to the sample after its own. -/
theorem position_lt (grows : Grows sourceSize factor) (inside : d < sourceSize * factor) :
    position64 factor d < (d / factor : Nat) + 1 := by
  have positive : (0 : ℚ) < factor := by exact_mod_cast grows.factor_pos
  rcases Nat.eq_zero_or_pos d with rfl | later
  · simp [position64]
  obtain ⟨low, high⟩ := grows.mul_step_bounds d
  have number : (1 : ℚ) ≤ d := by exact_mod_cast later
  have short : (d : ℚ) + 1 ≤ 2 ^ 52 := by exact_mod_cast inside.trans grows.short
  have factorShort : (factor : ℚ) ≤ 2 ^ 52 := by exact_mod_cast grows.factor_lt.le
  -- The position is not so small that rounding it loses digits.
  have normal : (2 : ℚ) ^ (Float.Model.Format.binary64.minExponent +
      Float.Model.Format.binary64.mantissaBits - 1) ≤ d * step64 factor := by
    have least : (2 : ℚ) ^ (Float.Model.Format.binary64.minExponent +
        Float.Model.Format.binary64.mantissaBits - 1) ≤ 2 ^ (-53 : ℤ) :=
      zpow_le_zpow_right₀ (by norm_num) (by decide)
    refine least.trans (le_of_mul_le_mul_left ?_ positive)
    norm_num at low ⊢
    linarith
  have moved : nearest64 (d * step64 factor) - d * step64 factor ≤ d * step64 factor / 2 ^ 53 :=
    (abs_le.mp (abs_nearest_sub_le_div normal)).2
  have last : (d : ℚ) + 1 ≤ ((d / factor : Nat) + 1) * factor := by
    have := Nat.lt_div_mul_add grows.factor_pos (a := d)
    exact_mod_cast (by rw [Nat.succ_mul]; omega : d + 1 ≤ (d / factor + 1) * factor)
  have scaled : factor * position64 factor d < d + 1 := by
    have rounded : factor * position64 factor d ≤
        factor * (d * step64 factor) * (1 + 1 / 2 ^ 53) := by
      have scaled := mul_le_mul_of_nonneg_left moved positive.le
      show factor * nearest64 (d * step64 factor) ≤ _
      linarith
    have twice : factor * (d * step64 factor) * (1 + 1 / 2 ^ 53) ≤
        d * (1 + 1 / 2 ^ 53) * (1 + 1 / 2 ^ 53) :=
      mul_le_mul_of_nonneg_right high (by norm_num)
    norm_num at rounded twice
    linarith
  refine lt_of_mul_lt_mul_left (scaled.trans_le ?_) positive.le
  linarith

/-- The whole part of the position of a destination. -/
theorem floor_position (grows : Grows sourceSize factor) (inside : d < sourceSize * factor) :
    ⌊position64 factor d⌋ = duplicated factor d := by
  have next := grows.position_lt inside
  unfold duplicated
  split
  · rename_i slips
    obtain ⟨divides, later⟩ := grows.dvd_of_slips inside slips
    -- A destination that slips stays within one sample of its own.
    have whole : d / factor * factor = d := Nat.div_mul_cancel divides
    have first : 0 < d / factor := Nat.div_pos (Nat.le_of_dvd later divides) grows.factor_pos
    have short : (d : ℚ) ≤ 2 ^ 52 := by exact_mod_cast (inside.trans grows.short).le
    have one : (1 : ℚ) ≤ factor := by exact_mod_cast grows.factor_pos
    have before : ((d / factor - 1 : Nat) : ℚ) = (d / factor : Nat) - 1 := by
      rw [Nat.cast_sub first, Nat.cast_one]
    have value : ((d / factor : Nat) : ℚ) * factor = d := by exact_mod_cast whole
    have low := grows.le_position inside (m := d / factor - 1) (by rw [before]; linarith)
    have high : position64 factor d < (d / factor : Nat) := slips
    rw [Int.floor_eq_iff, Int.cast_natCast]
    rw [before] at low ⊢
    exact ⟨low, by linarith⟩
  · rename_i held
    rw [Int.floor_eq_iff, Int.cast_natCast]
    exact ⟨not_lt.mp held, next⟩

/-- The source sample at a position is not behind the destination's own sample. -/
theorem duplicated_le (factor d : Nat) : duplicated factor d ≤ d / factor := by
  unfold duplicated
  -- A destination that slips takes the sample before its own, and any other its own.
  split
  · exact Nat.sub_le _ _
  · exact le_refl _

/-- A destination belongs to a sample of the source axis. -/
theorem div_lt (grows : Grows sourceSize factor) (inside : d < sourceSize * factor) :
    d / factor < sourceSize :=
  (Nat.div_lt_iff_lt_mul grows.factor_pos).mpr inside

/-- The scale of the axis is read as the step. -/
theorem reads_scale (grows : Grows sourceSize factor) :
    ReadsDouble (double sourceSize / double (sourceSize * factor)) (step64 factor) := by
  -- Both sizes are doubles, so their quotient is rounded once.
  have short := grows.short
  have size : sourceSize ≤ sourceSize * factor := Nat.le_mul_of_pos_right _ grows.factor_pos
  have source : (sourceSize : ℚ) ≠ 0 := by exact_mod_cast grows.source_pos.ne'
  have one : (1 : ℚ) ≤ factor := by exact_mod_cast grows.factor_pos
  have quotient : (sourceSize : ℚ) / (sourceSize * factor : Nat) = 1 / factor := by
    push_cast
    field_simp
  have read := (readsDouble_double (n := sourceSize) (by omega)).div
    (readsDouble_double (n := sourceSize * factor) (by omega))
    (by exact_mod_cast (Nat.mul_pos grows.source_pos grows.factor_pos).ne') (by
      rw [quotient]
      exact moderate_of_le (by positivity)
        ((div_le_one (by linarith)).mpr one |>.trans (by norm_num)))
  rwa [quotient] at read

/-- The position of a destination as doubles form it. -/
theorem reads_position (grows : Grows sourceSize factor) (inside : d < sourceSize * factor) :
    ReadsDouble (double d * (double sourceSize / double (sourceSize * factor)))
      (position64 factor d) := by
  -- Destination and step are doubles, so their product is rounded once.
  have short := inside.trans grows.short
  have positive : (0 : ℚ) < factor := by exact_mod_cast grows.factor_pos
  have one : (1 : ℚ) ≤ factor := by exact_mod_cast grows.factor_pos
  obtain ⟨low, high⟩ := grows.mul_step_bounds d
  have number : (0 : ℚ) ≤ d := Nat.cast_nonneg d
  have size : (d : ℚ) ≤ 2 ^ 52 := by exact_mod_cast short.le
  have nonneg : 0 ≤ d * step64 factor := by
    refine le_of_mul_le_mul_left ?_ positive
    norm_num at low ⊢
    linarith
  refine (readsDouble_double (by omega)).mul grows.reads_scale (moderate_of_le nonneg ?_)
  have larger := le_mul_of_one_le_left nonneg one
  norm_num at high ⊢
  linarith

/-- The code finds the source sample at the position of a destination. -/
theorem index_eq (grows : Grows sourceSize factor) (inside : d < sourceSize * factor) :
    toIndex (wholeDouble .down (double d * (double sourceSize / double (sourceSize * factor)))) =
      duplicated factor d := by
  -- The rounded position has the floor that is asked for.
  have within := (duplicated_le factor d).trans (Nat.div_le_self d factor)
  have whole := grows.floor_position inside
  refine (grows.reads_position inside).toIndex_wholeDouble .down ?_ whole
    (by have := grows.short; omega)
  have least : (0 : ℚ) ≤ ⌊position64 factor d⌋ := by
    rw [whole]
    positivity
  exact least.trans (Int.floor_le _)

/-- The inverse scale of the axis is its factor. -/
theorem reads_inverse (grows : Grows sourceSize factor) :
    ReadsDouble (double (sourceSize * factor) / double sourceSize) factor :=
  readsDouble_mul_div grows.source_pos grows.factor_pos (by have := grows.short; omega)

/-- How far a destination reaches past the end of the sample at its position, in destinations. -/
def reach (factor d : Nat) : ℤ := (d + 1 : ℤ) - (duplicated factor d + 1) * factor

/-- A destination that slips lies behind the sample at its position. -/
theorem reach_of_slips (grows : Grows sourceSize factor) (inside : d < sourceSize * factor)
    (slips : Slips factor d) : reach factor d = 1 := by
  -- A slip happens at the first copy of a sample, which is not the first sample.
  obtain ⟨divides, later⟩ := grows.dvd_of_slips inside slips
  have whole : d / factor * factor = d := Nat.div_mul_cancel divides
  have first : 0 < d / factor := Nat.div_pos (Nat.le_of_dvd later divides) grows.factor_pos
  have next : duplicated factor d + 1 = d / factor := by
    rw [duplicated, if_pos slips, Nat.sub_add_cancel first]
  have value : ((duplicated factor d : ℤ) + 1) * factor = d := by exact_mod_cast next ▸ whole
  rw [reach, value]
  omega

/-- Any other destination lies within the sample at its position. -/
theorem reach_nonpos (grows : Grows sourceSize factor) (held : ¬Slips factor d) :
    reach factor d ≤ 0 := by
  -- Without a slip the next destination still lies before the end of the sample.
  have last := Nat.lt_div_mul_add grows.factor_pos (a := d)
  have own : duplicated factor d = d / factor := if_neg held
  have end_ : (d : ℤ) + 1 ≤ (duplicated factor d + 1) * factor := by
    rw [own]
    exact_mod_cast (by rw [Nat.succ_mul]; omega : d + 1 ≤ (d / factor + 1) * factor)
  rw [reach]
  omega

/-- The reach of a destination is formed without rounding, up to its digits as a single. -/
theorem reads_reach (grows : Grows sourceSize factor) (inside : d < sourceSize * factor) :
    Reads (narrow (double (d + 1) -
        double (duplicated factor d + 1) * (double (sourceSize * factor) / double sourceSize)))
      (nearest32 (reach factor d)) := by
  have short := grows.short
  have own := (duplicated_le factor d).trans_lt (grows.div_lt inside)
  have product : (duplicated factor d + 1) * factor ≤ sourceSize * factor :=
    Nat.mul_le_mul_right factor own
  have samples : sourceSize ≤ sourceSize * factor := Nat.le_mul_of_pos_right _ grows.factor_pos
  -- The end of the sample at the position is a whole number of destinations.
  have stop := (readsDouble_double (n := duplicated factor d + 1) (by omega)).mul
    grows.reads_inverse (by exact_mod_cast moderate_natCast (n := _ * factor) (by omega))
  rw [← Nat.cast_mul, nearest64_natCast (by omega)] at stop
  have value : ((d + 1 : Nat) : ℚ) - ((duplicated factor d + 1) * factor : Nat) =
      reach factor d := by
    rw [reach]
    push_cast
    ring
  have size : |reach factor d| < 2 ^ 52 := by
    rw [reach, abs_lt]
    have natural : ((duplicated factor d + 1) * factor : ℤ) ≤ sourceSize * factor := by
      exact_mod_cast product
    have least : (0 : ℤ) ≤ (duplicated factor d + 1) * factor := by positivity
    have limit : (sourceSize * factor : ℤ) < 2 ^ 52 := by exact_mod_cast short
    have place : (d : ℤ) < sourceSize * factor := by exact_mod_cast inside
    constructor <;> omega
  have bounded : |(reach factor d : ℚ)| ≤ 2 ^ 52 := by exact_mod_cast size.le
  have difference := (readsDouble_double (n := d + 1) (by omega)).sub stop (by
    rw [value]
    exact bounded.trans (pow_le_pow_right₀ (by norm_num) (by norm_num)))
  have exact_ : nearest64 (reach factor d) = reach factor d := by
    have held := nearest_eq_self .binary64 (n := reach factor d) (e := 0)
      (size.trans (by decide)) (by decide)
    rwa [zpow_zero, mul_one] at held
  rw [value, exact_] at difference
  refine difference.narrow ?_
  have rounded : |nearest32 (reach factor d)| ≤ 2 ^ (52 : ℤ) :=
    abs_nearest_le (by decide) (by exact_mod_cast bounded)
  exact rounded.trans_lt (by norm_num)

/-- The share of the next sample is zero: a destination that lies within its sample does not reach
past it, and one that lies behind it reaches a whole destination past it, of which no fraction is
left. -/
theorem reads_weight (grows : Grows sourceSize factor) (inside : d < sourceSize * factor)
    {x : Float32} (read : Reads x (nearest32 (reach factor d))) :
    Reads (if Scalar.lt Scalar.zero x then x - Scalar.floor x else Scalar.zero) 0 := by
  -- The copy that slips reaches the whole next sample, of which no fraction is left.
  by_cases slips : Slips factor d
  · rw [grows.reach_of_slips inside slips] at read
    have one : nearest32 ((1 : ℤ) : ℚ) = 1 := by
      exact_mod_cast nearest32_natCast (n := 1) (by norm_num)
    rw [one] at read
    have above : Scalar.lt (Scalar.zero : Float32) x = true :=
      decide_eq_true ((reads_zero.lt_iff read).mpr (by norm_num))
    have rest := read.fraction
    have kept : nearest32 0 = 0 := nearest_zero _
    rw [Int.floor_one, Int.cast_one, sub_self, kept] at rest
    rwa [if_pos above]
  -- Any other copy reaches nothing of the next sample.
  · have nonpos : nearest32 (reach factor d) ≤ 0 := by
      have mono := nearest_mono .binary32
        (show ((reach factor d : ℤ) : ℚ) ≤ 0 by exact_mod_cast grows.reach_nonpos slips)
      rwa [nearest_zero] at mono
    have below : ¬Scalar.lt (Scalar.zero : Float32) x = true := fun above =>
      absurd ((reads_zero.lt_iff read).mp (of_decide_eq_true above)) (not_lt.mpr nonpos)
    rw [if_neg below]
    exact reads_zero

/-- A destination takes its sample from one source sample alone: its own, or, where its position is
rounded to below it, the one before. -/
theorem tap_eq (grows : Grows sourceSize factor) (inside : d < sourceSize * factor) :
    (tap Float sourceSize (sourceSize * factor) d).low = duplicated factor d ∧
      Reads (tap Float sourceSize (sourceSize * factor) d).weight 0 := by
  -- The index does not depend on the weight, and past the last sample the weight is zero.
  have index : Wide.toIndex (Scalar.floor (Scalar.ofNat d *
      (Scalar.ofNat sourceSize / Scalar.ofNat (sourceSize * factor)) : Float)) =
        duplicated factor d := grows.index_eq inside
  have own := (duplicated_le factor d).trans_lt (grows.div_lt inside)
  simp only [tap, index]
  split
  · exact ⟨by dsimp only; omega, reads_zero⟩
  · exact ⟨rfl, grows.reads_weight inside (grows.reads_reach inside)⟩

/-- Where the first destination of the second sample does not slip, none does. -/
theorem not_slips (grows : Grows sourceSize factor) (inside : d < sourceSize * factor)
    (first : ¬Slips factor factor) : ¬Slips factor d := by
  intro slips
  obtain ⟨divides, later⟩ := grows.dvd_of_slips inside slips
  obtain ⟨m, rfl⟩ := divides
  have own : factor * m / factor = m := Nat.mul_div_cancel_left m grows.factor_pos
  have one : factor / factor = 1 := Nat.div_self grows.factor_pos
  have small : m < 2 ^ 53 := by
    have := Nat.le_mul_of_pos_left m grows.factor_pos
    have := grows.short
    omega
  -- Positions of first destinations are whole multiples of that of the second sample's.
  have near : 1 ≤ nearest64 (factor * step64 factor) := by
    have held := not_lt.mp first
    rwa [one, Nat.cast_one] at held
  have nonneg : 0 ≤ factor * step64 factor := by
    have := (abs_le.mp grows.step_near).1
    norm_num at this
    linarith
  have held := natCast_le_nearest64_mul small nonneg near
  rw [Slips, own, position64] at slips
  push_cast at slips
  rw [mul_comm (factor : ℚ), mul_assoc] at slips
  exact absurd held (not_le.mpr slips)

/-- Every destination is given its own sample exactly when the axis has a single sample or the first
destination of the second sample does not slip. -/
theorem duplicated_eq_div_iff (grows : Grows sourceSize factor) :
    (∀ d < sourceSize * factor, duplicated factor d = d / factor) ↔
      sourceSize = 1 ∨ ¬Slips factor factor := by
  constructor
  -- On an axis of several samples the first destination of the second one is a place to look at.
  · intro own
    by_contra! slips
    obtain ⟨several, slips⟩ := slips
    have inside : factor < sourceSize * factor := by
      have := grows.source_pos
      exact lt_mul_of_one_lt_left grows.factor_pos (by omega)
    have first := own factor inside
    rw [duplicated, if_pos slips, Nat.div_self grows.factor_pos] at first
    omega
  · rintro (rfl | first) d inside
    · have own : d / factor = 0 := Nat.div_eq_of_lt (by omega)
      have le := duplicated_le factor d
      omega
    · exact if_neg (grows.not_slips inside first)

end Grows

/-- The taps of an axis take every destination from its own sample alone. -/
def Duplicates (sourceSize factor : Nat) : Prop :=
  ∀ d < sourceSize * factor, (tap Float sourceSize (sourceSize * factor) d).low = d / factor ∧
    Reads (tap Float sourceSize (sourceSize * factor) d).weight 0

/-- An axis is duplicated exactly when it has a single sample or the first destination of the second
sample does not slip. -/
theorem Grows.duplicates_iff (grows : Grows sourceSize factor) :
    Duplicates sourceSize factor ↔ sourceSize = 1 ∨ ¬Slips factor factor := by
  -- The weight is zero in every case, so only the sample that is taken decides.
  rw [← grows.duplicated_eq_div_iff]
  refine forall₂_congr fun d inside => ?_
  obtain ⟨low, weight⟩ := grows.tap_eq inside
  rw [low, and_iff_left weight]

/-- A target that is larger than its source by whole factors, by more than one on some axis. -/
structure Enlarges (source target : Extent) (down across : Nat) : Prop where
  -- One axis at least grows; the other one may keep its size.
  rows : Grows source.height down
  columns : Grows source.width across
  height : target.height = source.height * down
  width : target.width = source.width * across
  larger : 1 < down ∨ 1 < across

/-- A larger target is planned to be grown into. -/
theorem Enlarges.planned {source target : Extent} {down across : Nat}
    (enlarges : Enlarges source target down across) : plan? source target = some .growth := by
  -- Growing on either axis is what the plan asks for.
  refine if_pos ?_
  rw [enlarges.height, enlarges.width]
  exact enlarges.larger.symm.imp (lt_mul_of_one_lt_right enlarges.columns.source_pos)
    (lt_mul_of_one_lt_right enlarges.rows.source_pos)

end Area.Growth

/-- Two samples of a depth are the same number, and the same byte. -/
def Depth.Same : (depth : Depth) → depth.Sample → depth.Sample → Prop
  | .byte, a, b => a = b
  | .single, a, b => SameNumber a.toSingle b.toSingle

/-- A sample is a number, as every byte is. -/
def Depth.Finite : (depth : Depth) → depth.Sample → Prop
  | .byte, _ => True
  | .single, a => a.toSingle.isFinite = true

/-- A finite sample reads as a number. -/
theorem Depth.Finite.exists_reads {depth : Depth} {sample : depth.Sample}
    (finite : depth.Finite sample) : ∃ q, Reads (Element.toSingle sample : Float32) q := by
  cases depth with
  | byte => exact ⟨_, reads_toFloat32 sample⟩
  | single => exact isFinite_iff.mp finite

/-- What reads as a sample is stored as it. -/
theorem Depth.same_ofSingle {depth : Depth} {sample : depth.Sample} {x : Float32} {q : ℚ}
    (read : Reads x q) (same : Reads (Element.toSingle sample : Float32) q) :
    depth.Same (Element.ofSingle x) sample := by
  cases depth with
  | byte =>
    -- A whole number in range is rounded to itself when it is stored.
    have number : q = sample.toNat := same.eq (reads_toFloat32 sample)
    subst number
    have whole : ⌊((sample.toNat : Nat) : ℚ) + 1 / 2⌋ = sample.toNat := by
      rw [Int.floor_eq_iff]
      push_cast
      constructor <;> linarith
    have stored := Byte.ofSingle_of_nonneg read (Nat.cast_nonneg _)
    rw [whole, Int.toNat_natCast, Nat.min_eq_right (Nat.le_of_lt_succ sample.toNat_lt)] at stored
    exact UInt8.toNat_inj.mp stored
  | single =>
    -- A single is stored by its bits.
    have kept : (Binary32.ofSingle x).toSingle = x := Float32.ofBits_toBits x
    show SameNumber (Binary32.ofSingle x).toSingle sample.toSingle
    rw [kept, sameNumber_iff, meaning_eq_number_iff.mpr read]
    exact (meaning_eq_number_iff.mpr same).symm

variable {depth : Depth} {channels : Nat} {source target : View depth.Sample channels}
variable {sample : Nat → Nat → Nat → depth.Sample}

/-- Taps whose second samples have no share give the first sample of both, among finite ones. -/
theorem Tap.same_value_of_idle (sample : Nat → Nat → Nat → depth.Sample) (c : Nat)
    {height width : Nat} {row column : Tap Float32}
    (finite : ∀ y x, y < height → x < width → depth.Finite (sample y x c))
    (rowInside : row.Inside height) (columnInside : column.Inside width)
    (rowIdle : Reads row.weight 0) (columnIdle : Reads column.weight 0) :
    depth.Same (value sample row column c) (sample row.low column.low c) := by
  obtain ⟨p, upperLow⟩ := (finite _ _ rowInside.1 columnInside.1).exists_reads
  obtain ⟨_, upperHigh⟩ := (finite _ _ rowInside.1 columnInside.2).exists_reads
  obtain ⟨_, lowerLow⟩ := (finite _ _ rowInside.2 columnInside.1).exists_reads
  obtain ⟨_, lowerHigh⟩ := (finite _ _ rowInside.2 columnInside.2).exists_reads
  -- Each row gives its first sample, and of the two rows the first is left.
  have mixed := reads_mix_of_idle rowIdle (reads_mix_of_idle columnIdle upperLow upperHigh)
    (reads_mix_of_idle columnIdle lowerLow lowerHigh)
  exact Depth.same_ofSingle mixed upperLow

namespace Area.Growth

variable {down across : Nat}

/-- Growing by whole factors shows, at every place, the source sample at its position. -/
theorem exists_resize_duplicated (accepted : checkChannels channels = .ok ())
    (enlarges : Enlarges source.extent target.extent down across) (shows : source.Shows sample)
    (finite : ∀ y x c, y < source.layout.height → x < source.layout.width → c < channels →
      depth.Finite (sample y x c)) :
    ∃ written, resize .area source target = .ok (some written) ∧ written.layout = target.layout ∧
      ∀ y x c, y < target.layout.height → x < target.layout.width → c < channels →
        ∃ stored, written.sample? y x c = some stored ∧
          depth.Same stored (sample (duplicated down y) (duplicated across x) c) := by
  have rows : Grows source.layout.height down := enlarges.rows
  have columns : Grows source.layout.width across := enlarges.columns
  have height : target.layout.height = source.layout.height * down := enlarges.height
  have width : target.layout.width = source.layout.width * across := enlarges.width
  obtain ⟨written, finished, layout, values⟩ :=
    exists_resize_growth accepted enlarges.planned shows
  refine ⟨written, finished, layout, fun y x c inImage inRow inPixel => ?_⟩
  refine ⟨_, values y x c (layout ▸ inImage) (layout ▸ inRow) inPixel, ?_⟩
  rw [height] at inImage ⊢
  rw [width] at inRow ⊢
  -- All four samples are finite, and only the first of them has a share.
  obtain ⟨rowOwn, rowIdle⟩ := rows.tap_eq inImage
  obtain ⟨columnOwn, columnIdle⟩ := columns.tap_eq inRow
  rw [← rowOwn, ← columnOwn]
  exact Tap.same_value_of_idle sample c (fun y x tall wide => finite y x c tall wide inPixel)
    (tap_inside rows.source_pos) (tap_inside columns.source_pos) rowIdle columnIdle

end Area.Growth

open Area.Growth

/-- Growing by whole factors takes every sample from one source sample: on either axis from its own,
or from the one before where its position is rounded to below that.  No position of an axis is
exactly when the axis has a single sample or the first destination of the second sample is not. -/
theorem resize_area_duplicates (down across : Nat) :
    (∀ sourceSize, Grows sourceSize down →
      (Duplicates sourceSize down ↔ sourceSize = 1 ∨ ¬Slips down down)) ∧
    (∀ sourceSize, Grows sourceSize across →
      (Duplicates sourceSize across ↔ sourceSize = 1 ∨ ¬Slips across across)) ∧
    ∀ (depth : Depth) {channels : Nat} {source target : View depth.Sample channels}
      {sample : Nat → Nat → Nat → depth.Sample}, checkChannels channels = .ok () →
      Enlarges source.extent target.extent down across → source.Shows sample →
      (∀ y x c, y < source.layout.height → x < source.layout.width → c < channels →
        depth.Finite (sample y x c)) →
      ∃ written, resize .area source target = .ok (some written) ∧ written.layout = target.layout ∧
        (∀ y x c, y < target.layout.height → x < target.layout.width → c < channels →
          ∃ stored, written.sample? y x c = some stored ∧
            depth.Same stored (sample (duplicated down y) (duplicated across x) c)) ∧
        (Duplicates source.layout.height down → Duplicates source.layout.width across →
          ∀ y x c, y < target.layout.height → x < target.layout.width → c < channels →
            ∃ stored, written.sample? y x c = some stored ∧
              depth.Same stored (sample (y / down) (x / across) c)) := by
  refine ⟨fun _ => Grows.duplicates_iff, fun _ => Grows.duplicates_iff, ?_⟩
  intro depth channels source target sample accepted enlarges shows finite
  obtain ⟨written, finished, layout, values⟩ :=
    exists_resize_duplicated accepted enlarges shows finite
  refine ⟨written, finished, layout, values, ?_⟩
  intro rows columns y x c inImage inRow inPixel
  obtain ⟨stored, read, same⟩ := values y x c inImage inRow inPixel
  -- The axis shows what its taps take, which is the own sample of every destination.
  have height : target.layout.height = source.layout.height * down := enlarges.height
  have width : target.layout.width = source.layout.width * across := enlarges.width
  rw [height] at inImage
  rw [width] at inRow
  have row : duplicated down y = y / down :=
    (enlarges.rows.tap_eq inImage).1.symm.trans (rows y inImage).1
  have column : duplicated across x = x / across :=
    (enlarges.columns.tap_eq inRow).1.symm.trans (columns x inRow).1
  rw [row, column] at same
  exact ⟨stored, read, same⟩

/-- A row of two bytes. -/
def tenTwenty : View UInt8 1 := ⟨⟨1, 2, 2⟩, #[10, 20], Layout.check_eq_ok_iff.mp rfl⟩

/-- A row of four bytes. -/
def doubled : View UInt8 1 := ⟨⟨1, 4, 4⟩, Array.replicate 4 0, Layout.check_eq_ok_iff.mp rfl⟩

/-- A row of 98 bytes. -/
def wideRow : View UInt8 1 := ⟨⟨1, 98, 98⟩, Array.replicate 98 0, Layout.check_eq_ok_iff.mp rfl⟩

/-- A row of one sample grows by one. -/
theorem grows_one : Grows 1 1 := ⟨by decide, by decide, by decide⟩

/-- Two bytes grow to four. -/
theorem enlarges_doubled : Enlarges tenTwenty.extent doubled.extent 1 2 :=
  ⟨grows_one, ⟨by decide, by decide, by decide⟩, rfl, rfl, .inr (by decide)⟩

/-- The row shows its two bytes. -/
theorem tenTwenty_shows : tenTwenty.Shows fun _ x _ => if x = 0 then 10 else 20 :=
  View.shows_of_row rfl (by decide)

/-- Two bytes are doubled. -/
theorem resize_area_duplicates_twice :
    Grows 2 2 ∧ ¬Slips 2 2 ∧ checkChannels 1 = .ok () ∧
    Enlarges tenTwenty.extent doubled.extent 1 2 ∧
    ∃ written, resize .area tenTwenty doubled = .ok (some written) ∧
      written.sample? 0 1 0 = some 10 ∧ written.sample? 0 2 0 = some 20 := by
  have grows : Grows 2 2 := enlarges_doubled.columns
  have held : ¬Slips 2 2 := by decide +kernel
  obtain ⟨rows, columns, image⟩ := resize_area_duplicates 1 2
  obtain ⟨written, finished, -, -, own⟩ :=
    @image .byte 1 _ _ _ rfl enlarges_doubled tenTwenty_shows fun _ _ _ _ _ _ => trivial
  have values := own ((rows 1 grows_one).mpr (.inl rfl)) ((columns 2 grows).mpr (.inr held))
  obtain ⟨_, first, rfl⟩ := values 0 1 0 (by decide) (by decide) (by decide)
  obtain ⟨_, second, rfl⟩ := values 0 2 0 (by decide) (by decide) (by decide)
  exact ⟨grows, held, rfl, enlarges_doubled, written, finished, first, second⟩

/-- Two bytes grow to 98, and the first destination of the second is given the first. -/
theorem resize_area_slips : Enlarges tenTwenty.extent wideRow.extent 1 49 ∧
    (tap Float 2 98 49).low = 0 ∧ tenTwenty.sample? 0 (49 / 49) 0 = some 20 ∧
    ∃ written, resize .area tenTwenty wideRow = .ok (some written) ∧
      written.sample? 0 49 0 = some 10 := by
  have enlarges : Enlarges tenTwenty.extent wideRow.extent 1 49 :=
    ⟨grows_one, ⟨by decide, by decide, by decide⟩, rfl, rfl, .inr (by decide)⟩
  obtain ⟨written, finished, layout, values⟩ :=
    exists_resize_growth rfl enlarges.planned tenTwenty_shows
  refine ⟨enlarges, by decide +kernel, rfl, written, finished, ?_⟩
  rw [values 0 49 0 (by rw [layout]; decide) (by rw [layout]; decide) (by decide)]
  exact congrArg some (by decide +kernel)

end Raster
