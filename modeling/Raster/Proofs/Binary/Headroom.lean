import Raster.Proofs.Binary.Single

/-!
Weighted sums of two singles.  Main statement: `abs_weighted_lt`, when the weights add up to one, up
to rounding, the sum stays below the limit of singles whatever the two are.
-/

namespace Raster.Binary

open Float.Model (Format)

variable {format : Format} {q s t a b : ℚ}

/-- Rounding is symmetric, so magnitudes are rounded like numbers. -/
theorem abs_nearest (format : Format) (q : ℚ) : |nearest format q| = nearest format |q| := by
  -- Rounding commutes with the sign.
  rcases le_total 0 q with nonneg | nonpos
  · rw [abs_of_nonneg nonneg, abs_of_nonneg (nearest_nonneg nonneg)]
  · have low : 0 ≤ nearest format (-q) := nearest_nonneg (neg_nonneg.mpr nonpos)
    rw [nearest_neg] at low
    rw [abs_of_nonpos nonpos, nearest_neg, abs_of_nonpos (by linarith)]

/-- The largest single is a power of two less its last place. -/
theorem largest32_eq : largest32 = 2 ^ 128 - 2 ^ 104 := by
  norm_num [largest32]

/-- Singles reach up to half a place above the largest of them. -/
theorem abs_nearest32_lt (below : |q| < 2 ^ 128 - 2 ^ 103) : |nearest32 q| < 2 ^ 128 := by
  -- Below the limit the last place is the 104th, and rounding moves by half of it at most.
  have moved : |nearest32 q - q| ≤ 2 ^ (128 - 24 : ℤ) / 2 :=
    abs_nearest_sub_le_of_lt (k := 128) (below.trans (by norm_num)) (by decide)
  have split : |nearest32 q| ≤ |nearest32 q - q| + |q| := by
    simpa using abs_add_le (nearest32 q - q) q
  norm_num at moved below ⊢
  linarith

/-- Numbers in the upper half of the unit have 24 places behind the point. -/
theorem exists_multiple (held : nearest32 t = t) (low : 1 / 2 ≤ t) (high : t < 1) :
    ∃ k : ℤ, t = k / 2 ^ 24 := by
  -- From one half up to one the last place of a single is `2 ^ (-24)`.
  have place : lastPlace .binary32 t = -24 := by
    have log : Int.log 2 t = -1 :=
      log_eq_of_bounds (by norm_num; linarith) (by norm_num; exact high)
    rw [lastPlace, abs_of_pos (by linarith), log]
    decide
  refine ⟨roundEven (t / 2 ^ lastPlace .binary32 t), ?_⟩
  rw [place, zpow_neg, div_inv_eq_mul]
  rw [nearest32, nearest, place, zpow_neg, div_inv_eq_mul] at held
  exact held.symm.trans (div_eq_mul_inv _ _).symm

/-- The largest single times a weight above one half loses a whole last place. -/
theorem nearest32_largest_mul_le (held : nearest32 t = t) (low : 1 / 2 < t) (high : t ≤ 1) :
    nearest32 (largest32 * t) ≤ 2 ^ 128 * t - 2 ^ 104 := by
  rcases high.eq_or_lt with rfl | below
  -- At a weight of one the product is the largest single itself.
  · have held : nearest32 largest32 = largest32 :=
      nearest_eq_self .binary32 (by decide) (by decide)
    rw [mul_one, held, largest32_eq]
    norm_num
  -- Such a weight is a whole number of last places, more than half of those up to one.
  obtain ⟨k, rfl⟩ := exists_multiple held low.le below
  have units : (2 : ℚ) ^ 23 + 1 ≤ k := by
    rw [lt_div_iff₀ (by norm_num)] at low
    have whole : (2 ^ 23 : ℤ) < k := by
      have : ((2 ^ 23 : ℤ) : ℚ) < k := by
        push_cast
        linarith
      exact_mod_cast this
    exact_mod_cast whole
  have most : (k : ℚ) < 2 ^ 24 := by
    rwa [div_lt_one (by norm_num)] at below
  have place : lastPlace .binary32 (largest32 * (k / 2 ^ 24)) = 104 := by
    have log : Int.log 2 (largest32 * (k / 2 ^ 24)) = 127 := by
      rw [largest32_eq]
      refine log_eq_of_bounds ?_ ?_ <;> norm_num at units most ⊢ <;> linarith
    have positive : 0 < largest32 * (k / 2 ^ 24) :=
      mul_pos (by norm_num [largest32]) (by linarith)
    rw [lastPlace, abs_of_pos positive, log]
    decide
  -- In units of the last place the product lies less than one half above the number before.
  have digits : roundEven (largest32 * (k / 2 ^ 24) / 2 ^ (104 : ℤ)) ≤ k - 1 := by
    have near := (abs_le.mp (abs_roundEven_sub_le (largest32 * (k / 2 ^ 24) / 2 ^ (104 : ℤ)))).2
    have value : largest32 * (k / 2 ^ 24) / 2 ^ (104 : ℤ) = k - k / 2 ^ 24 := by
      rw [largest32_eq]
      norm_num
      ring
    rw [value] at near ⊢
    have less : (roundEven (k - k / 2 ^ 24 : ℚ) : ℚ) < k := by linarith
    have whole : roundEven (k - k / 2 ^ 24 : ℚ) < k := by exact_mod_cast less
    omega
  rw [nearest32, nearest, place]
  have scaled : ((roundEven (largest32 * (k / 2 ^ 24) / 2 ^ (104 : ℤ)) : ℤ) : ℚ) ≤ k - 1 := by
    exact_mod_cast digits
  norm_num at scaled ⊢
  linarith

/-- The largest single times a weight that is not tiny stays below the limit times the weight. -/
theorem nearest32_largest_mul_lt (low : 1 / 2 ^ 26 ≤ t) :
    nearest32 (largest32 * t) < 2 ^ 128 * t := by
  -- The product is large enough to keep all its digits, so rounding adds a part in 2 ^ 24 of it.
  have normal : (2 : ℚ) ^ (Format.binary32.minExponent + Format.binary32.mantissaBits - 1) ≤
      largest32 * t := by
    have least : (2 : ℚ) ^ (Format.binary32.minExponent + Format.binary32.mantissaBits - 1) ≤ 1 :=
      zpow_le_one_of_nonpos₀ (by norm_num) (by decide)
    rw [largest32_eq]
    norm_num at low ⊢
    linarith
  have moved := (abs_le.mp (abs_nearest_sub_le_div normal)).2
  have bits : (2 : ℚ) ^ Format.binary32.mantissaBits = 2 ^ 24 := rfl
  rw [bits, largest32_eq] at moved
  rw [largest32_eq]
  norm_num at low moved ⊢
  linarith

/-- The largest single keeps its digits when a power of two that is not too large divides it. -/
theorem nearest32_largest_mul_two_pow {k : Nat} (few : k ≤ 253) :
    nearest32 (largest32 * (1 / 2 ^ k)) = largest32 * (1 / 2 ^ k) := by
  -- The digits of the largest single, moved down by `k` places, are still within the format.
  have held := nearest_eq_self .binary32 (n := 2 ^ 24 - 1) (e := 104 - k) (by decide) (by
    show (-149 : ℤ) ≤ _
    omega)
  have value : ((2 ^ 24 - 1 : ℤ) : ℚ) * 2 ^ (104 - k : ℤ) = largest32 * (1 / 2 ^ k) := by
    rw [zpow_sub₀ (by norm_num), zpow_natCast, largest32_eq]
    norm_num
    ring
  rwa [value] at held

/-- The largest single is mixed with itself to less than half a place above it. -/
theorem add_nearest32_largest_lt (held : nearest32 t = t) (order : s ≤ t) (high : t ≤ 1)
    (near : s + t ≤ 1 + 1 / 2 ^ 25) :
    nearest32 (largest32 * s) + nearest32 (largest32 * t) < 2 ^ 128 - 2 ^ 103 := by
  have positive : 0 < largest32 := by norm_num [largest32]
  have mono : ∀ {x y : ℚ}, x ≤ y → nearest32 (largest32 * x) ≤ nearest32 (largest32 * y) :=
    fun order => nearest_mono .binary32 (mul_le_mul_of_nonneg_left order positive.le)
  rcases le_or_gt t (1 / 2) with small | large
  · -- Half of the largest single is a single, and neither product passes it.
    have half := nearest32_largest_mul_two_pow (k := 1) (by decide)
    rw [pow_one] at half
    have first := mono (order.trans small)
    have second := mono small
    rw [half, largest32_eq] at first second
    rw [largest32_eq]
    norm_num at first second ⊢
    linarith
  · have larger := nearest32_largest_mul_le held large high
    rcases le_or_gt s (1 / 2 ^ 26) with tiny | large
    · -- A tiny weight takes so little that the other may be one.
      have single := nearest32_largest_mul_two_pow (k := 26) (by decide)
      have smaller := mono tiny
      rw [single] at smaller
      rw [largest32_eq] at larger smaller ⊢
      norm_num at larger smaller ⊢
      linarith
    · -- The larger weight loses a whole place, and rounding the weights gives back half of one.
      have smaller := nearest32_largest_mul_lt large.le
      norm_num at larger smaller near ⊢
      linarith

/-- A product with a weight is rounded to at most what the largest single is. -/
theorem abs_nearest32_mul_le (size : |a| ≤ largest32) (nonneg : 0 ≤ t) :
    |nearest32 (a * t)| ≤ nearest32 (largest32 * t) := by
  -- The magnitude of a product grows with that of its factor.
  rw [abs_nearest, abs_mul, abs_of_nonneg nonneg]
  exact nearest_mono .binary32 (mul_le_mul_of_nonneg_right size nonneg)

/-- Two singles mixed by weights that add up to one, up to rounding, stay below the limit. -/
theorem abs_weighted_lt (first : |a| ≤ largest32) (second : |b| ≤ largest32)
    (heldFirst : nearest32 s = s) (heldSecond : nearest32 t = t) (lowFirst : 0 ≤ s)
    (lowSecond : 0 ≤ t) (highFirst : s ≤ 1) (highSecond : t ≤ 1)
    (near : s + t ≤ 1 + 1 / 2 ^ 25) :
    |nearest32 (nearest32 (a * s) + nearest32 (b * t))| < 2 ^ 128 := by
  -- The sum of the two rounded products is largest for two samples that are the largest.
  have bound : nearest32 (largest32 * s) + nearest32 (largest32 * t) < 2 ^ 128 - 2 ^ 103 := by
    rcases le_total s t with order | order
    · exact add_nearest32_largest_lt heldSecond order highSecond near
    · rw [add_comm] at near ⊢
      exact add_nearest32_largest_lt heldFirst order highFirst near
  refine abs_nearest32_lt ((abs_add_le _ _).trans_lt (lt_of_le_of_lt ?_ bound))
  exact add_le_add (abs_nearest32_mul_le first lowFirst) (abs_nearest32_mul_le second lowSecond)

end Raster.Binary
