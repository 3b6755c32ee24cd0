import Raster.Proofs.Binary.Nearest
import Raster.Proofs.Binary.Packing

/-!
Rounding of unpacked numbers.  Main statements: `denotes_roundWithAccuracy` and `denotes_round`,
what is rounded and packed is the nearest number of the format.
-/

namespace Raster.Binary

open Float.Model (Format UnpackedFloat totalExponent)
open Float.Model.UnpackedFloat

/-- A magnitude with a sign. -/
def signed : Sign → ℚ → ℚ
  | .positive, x => x
  | .negative, x => -x

/-- The number is a rational, in the form in which the format holds it. -/
inductive Denotes (format : Format) : UnpackedFloat → ℚ → Prop
  | zero (sign : Sign) : Denotes format (.zero sign) 0
  -- Only normalized forms denote: the exponent is the one that the format picks.
  | finite (sign : Sign) {mantissa : Nat} {exponent : Int} (positive : 0 < mantissa)
      (target : exponent = format.targetExponent (totalExponent mantissa exponent)) :
      Denotes format (.finite sign mantissa exponent positive)
        (signed sign (mantissa * 2 ^ exponent))

/-- What a mantissa with its two residual bits says about a number. -/
def Represents (em : ExtendedMantissa) (x : ℚ) : Prop :=
  match em.accuracy with
  | .exact => x = em.mantissa
  -- What was shifted out is known only as less than, equal to or more than one half.
  | .inexact .lt => (em.mantissa : ℚ) < x ∧ x < em.mantissa + 1 / 2
  | .inexact .eq => x = em.mantissa + 1 / 2
  | .inexact .gt => (em.mantissa : ℚ) + 1 / 2 < x ∧ x < em.mantissa + 1

section Shifting

variable {em : ExtendedMantissa} {x : ℚ}

/-- The mantissa is the number without its fraction. -/
theorem Represents.bounds (represents : Represents em x) :
    (em.mantissa : ℚ) ≤ x ∧ x < em.mantissa + 1 := by
  -- What is cut off is less than one unit, whatever the two kept bits say of it.
  unfold Represents at represents
  split at represents
  · exact ⟨represents.ge, by linarith⟩
  · exact ⟨by linarith, by linarith⟩
  · exact ⟨by linarith, by linarith⟩
  · exact ⟨by linarith, by linarith⟩

/-- The residual bits decide between the two nearest mantissas. -/
theorem Represents.roundedMantissa (represents : Represents em x) :
    (em.roundedMantissa : ℤ) = roundEven x := by
  -- The kept bits tell whether a half is reached and whether it is passed.
  have floor : ⌊x⌋ = em.mantissa := Int.floor_eq_iff.mpr (by exact_mod_cast represents.bounds)
  unfold Represents at represents
  unfold roundEven ExtendedMantissa.roundedMantissa
  rw [floor]
  split at represents <;> rename_i residue <;> rw [residue] <;>
    simp only [Accuracy.roundToNearestEven] <;> push_cast
  · rw [if_pos (by linarith)]
  · rw [if_pos (by linarith)]
  · rw [if_neg (by linarith), if_neg (by linarith)]
  · rw [if_neg (by linarith), if_pos (by linarith)]

/-- Shifting by one place halves the number. -/
theorem Represents.shiftRightOne (represents : Represents em x) :
    Represents em.shiftRightOne (x / 2) := by
  obtain ⟨mantissa, roundBit, stickyBit⟩ := em
  rcases Nat.even_or_odd' mantissa with ⟨half, rfl | rfl⟩
  -- An even mantissa leaves a round bit of zero.
  · have quotient : 2 * half / 2 = half := by omega
    have bit : (2 * half % 2 != 0) = false := by simp
    cases roundBit <;> cases stickyBit <;>
      simp only [Represents, ExtendedMantissa.shiftRightOne, ExtendedMantissa.accuracy, quotient,
        bit, Bool.or_false, Bool.or_true] at represents ⊢ <;>
      push_cast at represents
    · linarith
    · exact ⟨by linarith, by linarith⟩
    · exact ⟨by linarith, by linarith⟩
    · exact ⟨by linarith, by linarith⟩
  -- An odd one leaves a round bit of one, and the old bits become the sticky bit.
  · have quotient : (2 * half + 1) / 2 = half := by omega
    have bit : ((2 * half + 1) % 2 != 0) = true := by simp [Nat.add_mod]
    cases roundBit <;> cases stickyBit <;>
      simp only [Represents, ExtendedMantissa.shiftRightOne, ExtendedMantissa.accuracy, quotient,
        bit, Bool.or_false, Bool.or_true] at represents ⊢ <;>
      push_cast at represents
    · linarith
    · exact ⟨by linarith, by linarith⟩
    · exact ⟨by linarith, by linarith⟩
    · exact ⟨by linarith, by linarith⟩

/-- Shifting by several places divides the number by a power of two. -/
theorem Represents.shiftRight (represents : Represents em x) (count : Nat) :
    Represents (em >>> count) (x / 2 ^ count) := by
  -- A shift by many places is many shifts by one.
  show Represents (count.repeat ExtendedMantissa.shiftRightOne em) _
  induction count with
  | zero => simpa [Nat.repeat] using represents
  | succ count ih =>
    rw [Nat.repeat, pow_succ, ← div_div]
    exact ih.shiftRightOne

end Shifting

variable {format : Format} {sign : Sign} {mantissa : Nat} {exponent : Int} {x : ℚ}

/-- The logarithm of a number is that of its mantissa, moved by the exponent. -/
theorem log_eq (positive : 0 < mantissa) (low : (mantissa : ℚ) ≤ x / 2 ^ exponent)
    (high : x / 2 ^ exponent < mantissa + 1) : Int.log 2 x = mantissa.log2 + exponent := by
  -- The mantissa has its logarithm many digits, and the exponent moves them.
  have power := two_zpow_pos exponent
  have least : (2 : ℚ) ^ mantissa.log2 ≤ mantissa := by
    exact_mod_cast Nat.log2_self_le positive.ne'
  have most : (mantissa : ℚ) + 1 ≤ 2 ^ (mantissa.log2 + 1) := by
    exact_mod_cast Nat.lt_log2_self
  rw [le_div_iff₀ power] at low
  rw [div_lt_iff₀ power] at high
  refine log_eq_of_bounds ?_ ?_
  -- Both bounds of the mantissa are powers of two, so they carry over.
  · rw [zpow_add₀ (by norm_num), zpow_natCast]
    exact (mul_le_mul_of_nonneg_right least power.le).trans low
  · rw [show (mantissa.log2 : ℤ) + exponent + 1 = ((mantissa.log2 + 1 : Nat) : ℤ) + exponent by
      push_cast; ring, zpow_add₀ (by norm_num), zpow_natCast]
    exact high.trans_le (mul_le_mul_of_nonneg_right most power.le)

/-- Where no digit is missing, the exponent to shift to is that of the last place to be kept. -/
theorem lastPlace_eq_target (nonneg : 0 ≤ x) (nonzero : x ≠ 0)
    (low : (mantissa : ℚ) ≤ x / 2 ^ exponent) (high : x / 2 ^ exponent < mantissa + 1)
    (enough : exponent ≤ format.targetExponent (totalExponent mantissa exponent)) :
    lastPlace format x = format.targetExponent (totalExponent mantissa exponent) := by
  have positive : 0 < x := lt_of_le_of_ne nonneg nonzero.symm
  rw [lastPlace, abs_of_pos positive]
  rcases Nat.eq_zero_or_pos mantissa with rfl | positive
  -- Without a mantissa the number lies below the least exponent, which both sides then are.
  · have power : x < 2 ^ exponent := by
      rw [div_lt_iff₀ (two_zpow_pos exponent)] at high
      simpa using high
    have log : Int.log 2 x < exponent := (Int.lt_zpow_iff_log_lt (by norm_num) positive).mp power
    have bits := format.hm
    simp only [Format.targetExponent, totalExponent, Format.mantissaBits] at enough ⊢
    have empty : Nat.log2 0 = 0 := rfl
    omega
  -- Otherwise the two expressions differ only in the order of their terms.
  · rw [log_eq positive low high, totalExponent]
    congr 1
    ring

/-- Every format keeps two digits or more. -/
theorem two_le_mantissaBits (format : Format) : 2 ≤ format.mantissaBits := by
  -- The stored digits are positive, and the leading one is not stored.
  have := format.hm
  rw [Format.mantissaBits]
  omega

/-- A mantissa without a carry is already in its place. -/
theorem shift_of_short {place : Int} (least : format.minExponent ≤ place)
    (short : mantissa < 2 ^ format.mantissaBits) :
    shiftToTargetExponent format mantissa place .exact =
      (.ofMantissaAndAccuracy mantissa .exact, place) := by
  have log : mantissa.log2 < format.mantissaBits := by
    rcases Nat.eq_zero_or_pos mantissa with rfl | positive
    · exact Nat.lt_of_lt_of_le (by decide) (two_le_mantissaBits format)
    · exact (Nat.log2_lt positive.ne').mpr short
  -- No digits are left to shift out, and none are missing.
  have still : (format.targetExponent (totalExponent mantissa place) - place).toNat = 0 := by
    rw [Format.targetExponent, totalExponent]
    omega
  simp only [shiftToTargetExponent, shiftToExponent, still, Nat.cast_zero, add_zero]
  rfl

/-- A carry leaves a power of two, which moves by one place. -/
theorem shift_of_carry {place : Int} (least : format.minExponent ≤ place) :
    shiftToTargetExponent format (2 ^ format.mantissaBits) place .exact =
      (ExtendedMantissa.shiftRightOne (.ofMantissaAndAccuracy (2 ^ format.mantissaBits) .exact),
        place + 1) := by
  -- One digit too many: the exponent goes up by one.
  have next : format.targetExponent (totalExponent (2 ^ format.mantissaBits) place) =
      place + 1 := by
    rw [Format.targetExponent, totalExponent, Nat.log2_two_pow]
    omega
  have one : (place + 1 - place).toNat = 1 := by omega
  simp only [shiftToTargetExponent, shiftToExponent, next, one, Nat.cast_one]
  rfl

/-- A rounded mantissa, shifted once more to take in the carry out of its top digit, is exact. -/
theorem denotes_carry (sign : Sign) {place : Int} (least : format.minExponent ≤ place)
    (short : mantissa ≤ 2 ^ format.mantissaBits)
    (long : place = format.minExponent ∨ 2 ^ (format.mantissaBits - 1) ≤ mantissa) :
    Denotes format
      (if empty : (shiftToTargetExponent format mantissa place .exact).1.mantissa = 0 then
        .zero sign
      else .finite sign (shiftToTargetExponent format mantissa place .exact).1.mantissa
        (shiftToTargetExponent format mantissa place .exact).2 (Nat.pos_of_ne_zero empty))
      (signed sign (mantissa * 2 ^ place)) := by
  have two := two_le_mantissaBits format
  rcases short.lt_or_eq with below | rfl
  · simp only [shift_of_short least below, ExtendedMantissa.ofMantissaAndAccuracy]
    split
    -- A mantissa of zero makes a zero of its sign.
    · rename_i empty
      subst empty
      cases sign <;> simpa [signed] using Denotes.zero _
    · rename_i positive
      -- Any other mantissa has a full row of digits or the least exponent.
      have log := (Nat.log2_lt positive).mpr below
      refine .finite sign (Nat.pos_of_ne_zero positive) ?_
      rw [Format.targetExponent, totalExponent]
      rcases long with rfl | full
      · omega
      · have digits : format.mantissaBits - 1 ≤ mantissa.log2 := (Nat.le_log2 positive).mpr full
        omega
  -- A carry leaves half the mantissa one place higher, which is the same number.
  · have double : 2 ^ format.mantissaBits = 2 ^ (format.mantissaBits - 1) * 2 := by
      rw [← Nat.pow_succ]
      congr 1
      omega
    have half : 2 ^ format.mantissaBits / 2 = 2 ^ (format.mantissaBits - 1) := by omega
    simp only [shift_of_carry least, ExtendedMantissa.shiftRightOne,
      ExtendedMantissa.ofMantissaAndAccuracy, half, (Nat.two_pow_pos _).ne', dif_neg,
      not_false_eq_true]
    have value : ((2 ^ format.mantissaBits : Nat) : ℚ) * 2 ^ place =
        ((2 ^ (format.mantissaBits - 1) : Nat) : ℚ) * 2 ^ (place + 1) := by
      rw [double, zpow_add_one₀ (by norm_num)]
      push_cast
      ring
    rw [value]
    refine .finite sign _ ?_
    rw [Format.targetExponent, totalExponent, Nat.log2_two_pow]
    omega

/-- What is rounded denotes its rounded mantissa in the place that it is shifted to. -/
theorem denotes_of_shifted (sign : Sign) {accuracy : Accuracy} {em : ExtendedMantissa}
    {place : Int}
    (shifted : shiftToTargetExponent format mantissa exponent accuracy = (em, place))
    (least : format.minExponent ≤ place) (short : em.roundedMantissa ≤ 2 ^ format.mantissaBits)
    (long : place = format.minExponent ∨ 2 ^ (format.mantissaBits - 1) ≤ em.roundedMantissa) :
    Denotes format (roundWithAccuracy format sign mantissa exponent accuracy)
      (signed sign (em.roundedMantissa * 2 ^ place)) := by
  -- A mantissa that has become too long by the carry is a power of two.
  simp only [roundWithAccuracy, shifted]
  exact denotes_carry sign least short long

/-- A magnitude that is rounded from enough digits becomes the nearest number of the format. -/
theorem denotes_roundWithAccuracy (sign : Sign) {accuracy : Accuracy} (nonneg : 0 ≤ x)
    (represents : Represents (.ofMantissaAndAccuracy mantissa accuracy) (x / 2 ^ exponent))
    (enough : exponent ≤ format.targetExponent (totalExponent mantissa exponent)) :
    Denotes format (roundWithAccuracy format sign mantissa exponent accuracy)
      (signed sign (nearest format x)) := by
  obtain ⟨count, place⟩ : ∃ count : Nat,
      exponent + count = format.targetExponent (totalExponent mantissa exponent) :=
    ⟨(format.targetExponent (totalExponent mantissa exponent) - exponent).toNat, by omega⟩
  -- Rounding shifts by exactly that many places.
  have shifted : shiftToTargetExponent format mantissa exponent accuracy =
      (ExtendedMantissa.ofMantissaAndAccuracy mantissa accuracy >>> count, exponent + count) := by
    have steps : (format.targetExponent (totalExponent mantissa exponent) - exponent).toNat =
        count := by omega
    simp only [shiftToTargetExponent, shiftToExponent, steps]
  -- The shifted mantissa represents the number in units of its last place.
  have rounded := (represents.shiftRight count).roundedMantissa
  rw [div_div, ← zpow_natCast, ← zpow_add₀ (by norm_num)] at rounded
  have least : format.minExponent ≤ exponent + count := by
    rw [place]
    exact le_max_right _ _
  have held : (ExtendedMantissa.ofMantissaAndAccuracy mantissa accuracy).mantissa = mantissa := by
    cases accuracy with
    | exact => rfl
    | inexact order => cases order <;> rfl
  have bounds := represents.bounds
  rw [held] at bounds
  have denotes := denotes_of_shifted sign shifted least
  generalize (ExtendedMantissa.ofMantissaAndAccuracy mantissa accuracy >>> count).roundedMantissa =
    r at rounded denotes
  rcases eq_or_ne x 0 with rfl | nonzero
  -- Zero has no digits at all.
  · have empty : mantissa = 0 := by
      have low := bounds.1
      rw [zero_div] at low
      exact_mod_cast le_antisymm low (Nat.cast_nonneg _)
    have zero : r = 0 := by
      have whole : roundEven 0 = 0 := by simpa using roundEven_intCast 0
      rw [zero_div, whole] at rounded
      exact_mod_cast rounded
    have bits := format.hm
    have log : Nat.log2 0 = 0 := rfl
    subst empty zero
    rw [Format.targetExponent, totalExponent, Format.mantissaBits] at place enough
    simpa using denotes (Nat.zero_le _) (.inl (by omega))
  -- Otherwise that place is the last one that the format keeps for the number.
  · have positive : 0 < x := lt_of_le_of_ne nonneg nonzero.symm
    have last := lastPlace_eq_target nonneg nonzero bounds.1 bounds.2 enough
    rw [← place] at last
    obtain ⟨short, long⟩ := roundEven_lastPlace_bounds format positive
    rw [last, ← rounded] at short long
    have value : nearest format x = r * 2 ^ (exponent + (count : Int)) := by
      rw [nearest, last, ← rounded]
      norm_cast
    rw [value]
    exact denotes (by exact_mod_cast short) (long.imp_right fun digits => by exact_mod_cast digits)

/-- A whole mantissa represents the number that it is. -/
theorem represents_exact (mantissa : Nat) (exponent : Int) :
    Represents (.ofMantissaAndAccuracy mantissa .exact)
      (mantissa * 2 ^ exponent / 2 ^ exponent) := by
  -- Nothing was shifted out, so the mantissa is the number itself.
  rw [mul_div_cancel_right₀ _ (two_zpow_pos exponent).ne']
  rfl

/-- Zero stays zero wherever it is shifted to. -/
theorem roundWithAccuracy_zero (sign : Sign) (exponent : Int) :
    roundWithAccuracy format sign 0 exponent .exact = .zero sign := by
  -- However far zero is shifted, its mantissa and both kept bits stay zero.
  have still : ∀ count : Nat, ExtendedMantissa.ofMantissaAndAccuracy 0 .exact >>> count =
      ⟨0, false, false⟩ := by
    intro count
    show count.repeat ExtendedMantissa.shiftRightOne ⟨0, false, false⟩ = _
    induction count with
    | zero => rfl
    | succ count ih => rw [Nat.repeat, ih]; rfl
  have rounded : (⟨0, false, false⟩ : ExtendedMantissa).roundedMantissa = 0 := rfl
  simp only [roundWithAccuracy, shiftToTargetExponent, shiftToExponent, still, rounded, dif_pos]

/-- Shifting a positive number adds to its number of digits. -/
theorem log2_shiftLeft (positive : 0 < mantissa) (count : Nat) :
    (mantissa <<< count).log2 = mantissa.log2 + count := by
  -- A shift to the left adds digits at the end.
  have least := Nat.log2_self_le positive.ne'
  have most := Nat.lt_log2_self (n := mantissa)
  rw [Nat.shiftLeft_eq, Nat.log2_eq_iff (Nat.mul_pos positive (Nat.two_pow_pos _)).ne',
    Nat.add_right_comm, Nat.pow_add, Nat.pow_add]
  exact ⟨Nat.mul_le_mul_right _ least, Nat.mul_lt_mul_of_pos_right most (Nat.two_pow_pos _)⟩

/-- Lowering the exponent of a number does not change it. -/
theorem decreaseExponent_value (mantissa : Nat) (exponent target : Int) :
    ((decreaseExponent mantissa exponent target).1 : ℚ) *
      2 ^ (decreaseExponent mantissa exponent target).2 = mantissa * 2 ^ exponent := by
  -- The mantissa is multiplied by what the exponent loses.
  simp only [decreaseExponent, Nat.shiftLeft_eq]
  push_cast
  rw [← zpow_natCast, mul_assoc, ← zpow_add₀ (by norm_num)]
  congr 2
  omega

/-- A magnitude with any exponent is rounded to the nearest number of the format. -/
theorem denotes_round (format : Format) (sign : Sign) (mantissa : Nat) (exponent : Int) :
    Denotes format (UnpackedFloat.round format sign mantissa exponent)
      (signed sign (nearest format (mantissa * 2 ^ exponent))) := by
  rcases Nat.eq_zero_or_pos mantissa with rfl | positive
  -- A mantissa of zero stays zero.
  · simp only [UnpackedFloat.round, decreaseExponent, Nat.zero_shiftLeft, roundWithAccuracy_zero]
    cases sign <;> simpa [signed] using Denotes.zero _
  · have value := decreaseExponent_value mantissa exponent
      (format.targetExponent (totalExponent mantissa exponent))
    rw [← value]
    refine denotes_roundWithAccuracy sign
      (mul_nonneg (Nat.cast_nonneg _) (two_zpow_pos _).le) (represents_exact _ _) ?_
    -- The lowered exponent is no larger than the target, which the lowering does not move.
    simp only [totalExponent, log2_shiftLeft positive, Format.targetExponent]
    omega

/-- A whole number with an exponent is rounded to the nearest number of the format. -/
theorem denotes_normalize (format : Format) (mantissa : Int) (exponent : Int) (zeroSign : Sign) :
    Denotes format (UnpackedFloat.normalize format mantissa exponent zeroSign)
      (nearest format (mantissa * 2 ^ exponent)) := by
  -- The sign is split off, and the magnitude is rounded.
  unfold UnpackedFloat.normalize
  split
  · rename_i order
    -- A negative number is minus its rounded magnitude.
    have below : mantissa < 0 := compare_lt_iff_lt.mp order
    have rounded := denotes_round format .negative (-mantissa).toNat exponent
    have magnitude : (((-mantissa).toNat : Nat) : ℚ) = -mantissa := by
      exact_mod_cast Int.toNat_of_nonneg (by omega)
    rw [magnitude, neg_mul, nearest_neg, signed, neg_neg] at rounded
    exact rounded
  · rename_i order
    -- Zero takes the sign that is given for it.
    rw [compare_eq_iff_eq.mp order]
    simpa using Denotes.zero zeroSign
  · rename_i order
    -- A positive number is its own magnitude.
    have above : 0 < mantissa := compare_gt_iff_gt.mp order
    have rounded := denotes_round format .positive mantissa.toNat exponent
    have magnitude : ((mantissa.toNat : Nat) : ℚ) = mantissa := by
      exact_mod_cast Int.toNat_of_nonneg above.le
    rw [magnitude, signed] at rounded
    exact rounded

/-- Signs do not matter for the size of a number. -/
theorem abs_signed (sign : Sign) (x : ℚ) : |signed sign x| = |x| := by
  cases sign with
  | positive => rfl
  | negative => exact abs_neg x

/-- A number in the form that its format asks for fits when it is below the format's limit. -/
theorem canonical_of_lt (wide : 1 < format.exponentBits) (positive : 0 < mantissa)
    (target : exponent = format.targetExponent (totalExponent mantissa exponent))
    (moderate : (mantissa : ℚ) * 2 ^ exponent < 2 ^ (format.exponentBias + 1)) :
    Canonical format mantissa exponent := by
  refine ⟨target, ?_⟩
  have four : 2 ^ 2 ≤ 2 ^ format.exponentBits := Nat.pow_le_pow_right (by omega) wide
  have limit : ((2 ^ format.exponentBits : Nat) : Int) = 2 ^ format.exponentBits := by norm_cast
  have bias := two_mul_exponentBias format
  rw [Format.targetExponent, totalExponent, minExponent_eq, Format.mantissaBits] at target
  -- Above the least exponent the top digit alone keeps the exponent down.
  by_cases least : exponent = 1 - format.exponentBias - format.mantissaBitsWithoutImplicit
  · omega
  · have top : (2 : ℚ) ^ (mantissa.log2 + exponent) ≤ mantissa * 2 ^ exponent := by
      rw [zpow_add₀ (by norm_num), zpow_natCast]
      exact mul_le_mul_of_nonneg_right (by exact_mod_cast Nat.log2_self_le positive.ne')
        (two_zpow_pos exponent).le
    have powers : (2 : ℚ) ^ (mantissa.log2 + exponent) <
        2 ^ ((format.exponentBias + 1 : Nat) : Int) := by
      rw [zpow_natCast]
      exact top.trans_lt moderate
    have exponents := (zpow_lt_zpow_iff_right₀ (by norm_num)).mp powers
    push_cast at exponents
    omega

/-- A number below the limit of a format that denotes it survives packing. -/
theorem Denotes.unpack_pack {u : UnpackedFloat} (wide : 1 < format.exponentBits)
    (denotes : Denotes format u x) (moderate : |x| < 2 ^ (format.exponentBias + 1)) :
    unpack format (pack format u) = u := by
  -- Below the limit the biased exponent is not the one kept for infinities.
  cases denotes with
  | zero sign => exact unpack_packedZero
  | finite sign positive target =>
    rw [abs_signed, abs_of_nonneg (mul_nonneg (Nat.cast_nonneg _) (two_zpow_pos _).le)] at moderate
    exact Binary.unpack_pack positive (canonical_of_lt wide positive target moderate)

/-- What a format packs is an infinity, a NaN or denotes a number. -/
theorem denotes_unpack (format : Format) (wide : 1 < format.exponentBits)
    (bits : BitVec format.numBits) :
    (∃ sign, unpack format bits = .infinity sign) ∨ unpack format bits = .notANumber ∨
      ∃ x, Denotes format (unpack format bits) x := by
  -- Bits stand for a special number or for one in the form of the format.
  cases unpacked : unpack format bits with
  | infinity sign => exact .inl ⟨sign, rfl⟩
  | notANumber => exact .inr (.inl rfl)
  | zero sign => exact .inr (.inr ⟨0, .zero sign⟩)
  | finite sign mantissa exponent positive =>
    exact .inr (.inr ⟨_, .finite sign positive (canonical_of_unpack wide unpacked).target⟩)

end Raster.Binary
