import Raster.Proofs.Binary.Order

/-!
Counting in doubles.  Main statements: `double_add` and `double_mul`, sums and products of natural
numbers are exact as long as they have at most 53 digits.
-/

namespace Raster.Binary

open Float.Model (UnpackedFloat)
open Float.Model.UnpackedFloat

variable {x : Float} {q : ℚ} {m n : Nat}

/-- A positive number does not carry the negative sign. -/
theorem ReadsDouble.unsigned (read : ReadsDouble x q) (positive : 0 < q) : Unsigned x := by
  unfold Unsigned
  unfold ReadsDouble at read
  generalize x.toModel.unpack = u at read
  cases read with
  | zero s => exact absurd positive (lt_irrefl 0)
  | finite s mantissa target =>
    cases s with
    | positive => exact nofun
    | negative =>
      -- The magnitude is positive, so a negative sign would make the number negative.
      have magnitude := magnitude_pos mantissa
      rw [signed] at positive
      exact absurd positive (not_lt.mpr (neg_nonpos.mpr (magnitude _).le))

/-- A double without the negative sign is its own absolute value. -/
theorem abs_of_unsigned (unsigned : Unsigned x) : x.abs = x := by
  have same : x.toModel.unpack.abs = x.toModel.unpack := by
    unfold Unsigned at unsigned
    generalize x.toModel.unpack = u at unsigned
    -- No form without a sign is changed by dropping the sign.
    cases u with
    | notANumber => rfl
    | infinity s | zero s | finite s =>
      cases s with
      | positive => rfl
      | negative => exact absurd rfl unsigned
  show Float.ofModel (.pack x.toModel.unpack.abs) = x
  rw [same, ofModel_pack_unpack]

/-- The sum of natural numbers is exact when it has at most 53 digits. -/
theorem double_add (short : m + n < 2 ^ 53) : double m + double n = double (m + n) := by
  by_cases empty : m + n = 0
  · obtain ⟨rfl, rfl⟩ : m = 0 ∧ n = 0 := by omega
    rfl
  · -- The exact sum is a double, so it is not rounded, and it is positive.
    have sum : ((m + n : Nat) : ℚ) = m + n := by push_cast; rfl
    have read := ReadsDouble.add (readsDouble_double (n := m) (by omega))
      (readsDouble_double (n := n) (by omega)) (sum ▸ moderate_natCast short)
    rw [← sum, nearest64_natCast short] at read
    have positive : (0 : ℚ) < (m + n : Nat) := by exact_mod_cast Nat.pos_of_ne_zero empty
    exact eq_of_readsDouble read (readsDouble_double short) (read.unsigned positive)
      (unsigned_double _)

/-- The product of natural numbers is exact when it and they have at most 53 digits. -/
theorem double_mul (first : m < 2 ^ 53) (second : n < 2 ^ 53) (short : m * n < 2 ^ 53) :
    double m * double n = double (m * n) := by
  have product : ((m * n : Nat) : ℚ) = m * n := by push_cast; rfl
  -- The product of the doubles is the exact one, since it is short.
  have read := ReadsDouble.mul (readsDouble_double first) (readsDouble_double second)
    (product ▸ moderate_natCast short)
  rw [← product, nearest64_natCast short] at read
  exact eq_of_readsDouble read (readsDouble_double short)
    ((unsigned_double m).mul (unsigned_double n)) (unsigned_double _)

/-- A natural number is its own absolute value. -/
theorem abs_double (n : Nat) : (double n).abs = double n := abs_of_unsigned (unsigned_double n)

end Raster.Binary
