import Raster.Proofs.Binary.Double

/-!
Floors and fractions of binary numbers.  Main statements: `Denotes.floor`, the floor of a number of
a format is one of its numbers, and `fraction_cases_double` with `fraction_cases_single`, what lies
above a floor is between zero and one, also after rounding, or NaN.
-/

namespace Raster.Binary

open Float.Model (Format UnpackedFloat)
open Float.Model.UnpackedFloat

variable {format : Format} {u : UnpackedFloat} {q : ℚ}

/-- A number of a format is whole, or its floor has fewer digits than the format. -/
theorem Denotes.floor_cases (denotes : Denotes format u q) :
    (⌊q⌋ : ℚ) = q ∨ |⌊q⌋| ≤ 2 ^ (format.mantissaBits - 1) := by
  cases denotes with
  | zero sign => exact .inl (by simp)
  | finite sign positive target =>
    rename_i m e
    obtain ⟨short, -, -⟩ := short_of_target positive target
    rcases le_or_gt 0 e with natural | fraction
    · -- A number without digits behind the point is its own floor.
      left
      have whole : signed sign ((m : ℚ) * 2 ^ e) =
          ((sign.apply (m * 2 ^ e.toNat) : ℤ) : ℚ) := by
        have magnitude : (m : ℚ) * 2 ^ e = ((m * 2 ^ e.toNat : ℕ) : ℚ) := by
          push_cast
          rw [← zpow_natCast, Int.toNat_of_nonneg natural]
        rw [magnitude]
        cases sign <;> simp [Sign.apply, signed]
      rw [whole, Int.floor_intCast]
    · -- Any other number has few digits before the point.
      right
      have small : |signed sign ((m : ℚ) * 2 ^ e)| ≤ 2 ^ (format.mantissaBits - 1) := by
        have bits : 1 ≤ format.mantissaBits := by
          rw [Format.mantissaBits]
          omega
        rw [abs_signed, abs_of_pos (magnitude_pos positive e), ← zpow_natCast]
        calc (m : ℚ) * 2 ^ e ≤ 2 ^ (format.mantissaBits : ℤ) * 2 ^ (-1 : ℤ) := by
              refine mul_le_mul ?_ (zpow_le_zpow_right₀ (by norm_num) (by omega))
                (two_zpow_pos e).le (two_zpow_pos _).le
              rw [zpow_natCast]
              exact_mod_cast short.le
          _ = 2 ^ ((format.mantissaBits - 1 : ℕ) : ℤ) := by
              rw [← zpow_add₀ (by norm_num)]
              congr 1
              omega
      obtain ⟨low, high⟩ := abs_le.mp small
      refine abs_le.mpr ⟨?_, ?_⟩
      · rw [Int.le_floor]
        exact_mod_cast low
      · exact_mod_cast (Int.floor_le _).trans high

/-- The floor of a number of a format needs no rounding. -/
theorem Denotes.nearest_floor (denotes : Denotes format u q) (least : format.minExponent ≤ 0) :
    nearest format ⌊q⌋ = ⌊q⌋ := by
  -- A number is whole already, or so small that its floor has few digits.
  rcases denotes.floor_cases with whole | small
  · rw [whole, denotes.nearest_eq]
  · have digits : |⌊q⌋| < 2 ^ format.mantissaBits := by
      refine small.trans_lt (pow_lt_pow_right₀ (by norm_num) ?_)
      rw [Format.mantissaBits]
      omega
    have held := nearest_eq_self format (e := 0) digits least
    rwa [zpow_zero, mul_one] at held

/-- Resolving a number downwards gives its floor. -/
theorem Denotes.floor (denotes : Denotes format u q) (least : format.minExponent ≤ 0) :
    Denotes format (integral format .down u) ⌊q⌋ := by
  -- The floor of a negative number is minus the ceiling of its magnitude.
  rcases le_total 0 q with nonneg | nonpos
  · have resolved := denotes.integral_of_nonneg .down nonneg
    rwa [Direction.whole, denotes.nearest_floor least] at resolved
  · have resolved := denotes.integral_of_nonpos .down nonpos
    rw [Direction.whole, ← nearest_neg, Int.ceil_neg] at resolved
    push_cast at resolved
    rwa [neg_neg, denotes.nearest_floor least] at resolved

/-- Rounding does not take a number out of the range from zero to one. -/
theorem nearest_unit_bounds (least : format.minExponent ≤ 0) (low : 0 ≤ q) (high : q ≤ 1) :
    0 ≤ nearest format q ∧ nearest format q ≤ 1 := by
  refine ⟨nearest_nonneg low, ?_⟩
  -- One is a power of two, and rounding does not cross it.
  have within : |q| ≤ 2 ^ (0 : ℤ) := by rwa [abs_of_nonneg low, zpow_zero]
  exact (le_abs_self _).trans (abs_nearest_le least within)

section Packed

variable {bits : BitVec format.numBits}

/-- What a format packs is below its limit. -/
theorem abs_lt_of_denotes_unpack (wide : 1 < format.exponentBits)
    (denotes : Denotes format (unpack format bits) q) : |q| < 2 ^ (format.exponentBias + 1) := by
  generalize unpacked : unpack format bits = u at denotes
  cases denotes with
  | zero sign =>
    rw [abs_zero]
    positivity
  | finite sign positive target =>
    rename_i m e
    -- The exponent leaves room for all digits of the mantissa.
    have fits := (canonical_of_unpack wide unpacked).fits
    have bias := two_mul_exponentBias format
    obtain ⟨short, -, -⟩ := short_of_target positive target
    have limit : ((2 ^ format.exponentBits : Nat) : Int) = 2 ^ format.exponentBits := by norm_cast
    rw [abs_signed, abs_of_pos (magnitude_pos positive e)]
    calc (m : ℚ) * 2 ^ e < 2 ^ format.mantissaBits * 2 ^ e :=
          mul_lt_mul_of_pos_right (by exact_mod_cast short) (two_zpow_pos e)
      _ = 2 ^ ((format.mantissaBits : ℤ) + e) := by rw [zpow_add₀ (by norm_num), zpow_natCast]
      _ ≤ 2 ^ ((format.exponentBias + 1 : ℕ) : ℤ) := by
          refine zpow_le_zpow_right₀ (by norm_num) ?_
          rw [Format.mantissaBits]
          omega
      _ = 2 ^ (format.exponentBias + 1) := zpow_natCast ..

/-- The floor of what a format packs is packed without loss. -/
theorem denotes_unpack_floor (wide : 1 < format.exponentBits) (least : format.minExponent ≤ 0)
    (room : format.mantissaBits ≤ format.exponentBias + 1)
    (denotes : Denotes format (unpack format bits) q) :
    Denotes format (unpack format (pack format (integral format .down (unpack format bits))))
      ⌊q⌋ := by
  have floor := denotes.floor least
  rw [floor.unpack_pack wide]
  · exact floor
  · -- Packing keeps the floor, as it does not overflow: no whole number is larger than the float,
    -- and the others have few digits.
    rcases denotes.floor_cases with whole | small
    · rw [whole]
      exact abs_lt_of_denotes_unpack wide denotes
    · calc |(⌊q⌋ : ℚ)| ≤ 2 ^ (format.mantissaBits - 1) := by exact_mod_cast small
        _ < 2 ^ (format.exponentBias + 1) := by
            refine pow_lt_pow_right₀ (by norm_num) ?_
            rw [Format.mantissaBits] at room ⊢
            omega

/-- An infinity has no floor below it to be taken from. -/
theorem sub_infinity_self (sign : Sign) :
    sub format (.infinity sign) (.infinity sign) = .notANumber := by
  cases sign <;> rfl

/-- What a format packs is NaN when its floor is taken from it, or a rounded fraction. -/
theorem fraction_cases (wide : 1 < format.exponentBits) (least : format.minExponent ≤ 0)
    (room : format.mantissaBits ≤ format.exponentBias + 1) (bits : BitVec format.numBits) :
    sub format (unpack format bits)
        (unpack format (pack format (integral format .down (unpack format bits)))) = .notANumber ∨
      ∃ p, Denotes format (sub format (unpack format bits)
        (unpack format (pack format (integral format .down (unpack format bits)))))
          (nearest format p) ∧ 0 ≤ p ∧ p ≤ 1 := by
  -- An infinity less its floor is NaN; a number less its floor lies in the unit interval.
  obtain ⟨sign, infinite⟩ | nan | ⟨q, denotes⟩ := denotes_unpack format wide bits
  · left
    have floor : integral format .down (.infinity sign) = .infinity sign := rfl
    have packed : unpack format (pack format (.infinity sign)) = .infinity sign :=
      unpack_packedInfinity
    rw [infinite, floor, packed, sub_infinity_self]
  · left
    rw [nan]
    rfl
  · right
    have low := Int.floor_le q
    have high := Int.lt_floor_add_one q
    exact ⟨q - ⌊q⌋, denotes.sub (denotes_unpack_floor wide least room denotes), by linarith,
      by linarith⟩

end Packed

/-- The difference of two singles is rounded once. -/
theorem Reads.sub {x y : Float32} {p : ℚ} (first : Reads x p) (second : Reads y q)
    (moderate : |nearest32 (p - q)| < 2 ^ 128) : Reads (x - y) (nearest32 (p - q)) :=
  reads_ofModel_pack (Denotes.sub first second) moderate

/-- A single packed from a rounded number between zero and one is that number. -/
theorem reads_pack_unit (denotes : Denotes .binary32 u (nearest32 q)) (low : 0 ≤ q) (high : q ≤ 1) :
    Reads (.ofModel (.pack u)) (nearest32 q) ∧ 0 ≤ nearest32 q ∧ nearest32 q ≤ 1 := by
  have bounds : 0 ≤ nearest32 q ∧ nearest32 q ≤ 1 := nearest_unit_bounds (by decide) low high
  refine ⟨reads_ofModel_pack denotes ?_, bounds⟩
  -- A value of at most one is far below the overflow.
  rw [abs_of_nonneg bounds.1]
  exact bounds.2.trans_lt (by norm_num)

/-- What a single has above its floor. -/
theorem Reads.fraction {x : Float32} (read : Reads x q) :
    Reads (x - wholeSingle .down x) (nearest32 (q - ⌊q⌋)) := by
  have floor : Reads (wholeSingle .down x) ⌊q⌋ :=
    denotes_unpack_floor (by decide) (by decide) (by decide) read
  -- The exact difference lies in the unit interval, so it packs.
  have low := Int.floor_le q
  have high := Int.lt_floor_add_one q
  exact (reads_pack_unit (Denotes.sub read floor) (by linarith) (by linarith)).1

/-- A single without its floor is NaN or lies between zero and one. -/
theorem fraction_cases_single (x : Float32) :
    (x - wholeSingle .down x).toModel.unpack = .notANumber ∨
      ∃ p, Reads (x - wholeSingle .down x) p ∧ 0 ≤ p ∧ p ≤ 1 := by
  have difference : x - wholeSingle .down x = .ofModel (.pack (.sub .binary32 x.toModel.unpack
    (wholeSingle .down x).toModel.unpack)) := rfl
  rw [difference]
  -- The fraction of the format, packed into the bits of a single.
  obtain nan | ⟨p, denotes, low, high⟩ := @fraction_cases .binary32 (by decide)
    (by decide) (by decide) x.toModel.toBits.toBitVec
  · left
    exact (congrArg (fun u => (Float32.Model.pack u).unpack) nan).trans unpack_packedNaN
  · exact .inr ⟨_, reads_pack_unit denotes low high⟩

/-- A double without its floor is narrowed to NaN or to a single between zero and one. -/
theorem fraction_cases_double (x : Float) :
    (narrow (x - wholeDouble .down x)).toModel.unpack = .notANumber ∨
      ∃ p, Reads (narrow (x - wholeDouble .down x)) p ∧ 0 ≤ p ∧ p ≤ 1 := by
  have difference : x - wholeDouble .down x = .ofModel (.pack (.sub .binary64 x.toModel.unpack
    (wholeDouble .down x).toModel.unpack)) := rfl
  rw [difference, narrow]
  -- As for singles, with one more rounding from the double to the single.
  obtain nan | ⟨p, denotes, low, high⟩ := @fraction_cases .binary64 (by decide)
    (by decide) (by decide) x.toModel.toBits.toBitVec
  · left
    have packed : (Float.Model.pack .notANumber).unpack = .notANumber := unpack_packedNaN
    have held := (congrArg (fun u => (Float.Model.pack u).unpack) nan).trans packed
    exact (congrArg (fun u => (Float32.Model.pack (convert .binary32 u)).unpack) held).trans
      unpack_packedNaN
  · right
    have bounds : 0 ≤ nearest64 p ∧ nearest64 p ≤ 1 := nearest_unit_bounds (by decide) low high
    have read := readsDouble_ofModel_pack denotes (moderate_of_le low (high.trans (by norm_num)))
    exact ⟨_, reads_pack_unit (denotes_convert read) bounds.1 bounds.2⟩

end Raster.Binary
