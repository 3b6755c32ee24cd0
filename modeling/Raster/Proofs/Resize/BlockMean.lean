import Raster.Proofs.Binary.Byte
import Raster.Proofs.Binary.Reciprocal
import Raster.Proofs.Resize.Blocks
import Raster.Proofs.Resize.Written

/-!
Block means of bytes.  Main statement: `resize_blocks_eq_roundedMean_iff`, a destination byte is the
rounded mean of its block exactly when the mean formed in singles rounds to it.
-/

namespace Raster.Area.Blocks

open Binary
open Float.Model (Format)

/-- The mean of a block of bytes. -/
def exactMean (block : List UInt8) : ℚ := ((block.map UInt8.toNat).sum : ℚ) / block.length

/-- The mean of a block of bytes rounded to nearest, halves away from zero. -/
def roundedMean (block : List UInt8) : Nat := ⌊exactMean block + 1 / 2⌋.toNat

/-- A sum of bytes that is rounded after every addition, as singles are. -/
def runningSum (block : List UInt8) : ℚ :=
  block.foldl (fun sum byte => nearest32 (sum + byte.toNat)) 0

/-- The reciprocal of a count as a single; counts too large for singles are infinite. -/
def reciprocal (n : Nat) : ℚ := if nearest32 n < 2 ^ 128 then nearest32 (1 / nearest32 n) else 0

/-- The mean of a block as singles form it. -/
def singleMean (block : List UInt8) : ℚ := nearest32 (runningSum block * reciprocal block.length)

/-- The mean in singles is at most a half below the rounded mean and less than a half above it, the
largest byte standing for what lies beyond it too. -/
def Kept (block : List UInt8) : Prop :=
  (roundedMean block : ℚ) - 1 / 2 ≤ singleMean block ∧
    (roundedMean block = 255 ∨ singleMean block < roundedMean block + 1 / 2)

/-- A sum that has reached the 33rd binary digit stays where it is. -/
theorem nearest32_full : nearest32 (2 ^ 32 + 255) = 2 ^ 32 := by
  -- The last place is 512 there, so a byte is less than half of it.
  have log : Int.log 2 |(2 ^ 32 + 255 : ℚ)| = 32 := by
    rw [abs_of_pos (by norm_num)]
    exact log_eq_of_bounds (by norm_num) (by norm_num)
  have place : lastPlace .binary32 (2 ^ 32 + 255) = 9 := by
    rw [lastPlace, log]
    rfl
  have floor : ⌊(2 ^ 32 + 255 : ℚ) / 2 ^ (9 : ℤ)⌋ = 2 ^ 23 := by
    rw [Int.floor_eq_iff]
    norm_num
  have down : roundEven ((2 ^ 32 + 255) / 2 ^ (9 : ℤ)) = 2 ^ 23 := by
    rw [roundEven, floor, if_pos (by norm_num)]
  unfold nearest32 nearest
  rw [place, down]
  norm_num

/-- Adding a byte to a sum in range leaves it in range. -/
theorem nearest32_add_bounds {sum : ℚ} (nonneg : 0 ≤ sum) (below : sum ≤ 2 ^ 32) (byte : UInt8) :
    0 ≤ nearest32 (sum + byte.toNat) ∧ nearest32 (sum + byte.toNat) ≤ 2 ^ 32 := by
  -- Rounding keeps the order, and the upper bound is where the sum stops growing.
  have least : (0 : ℚ) ≤ byte.toNat := Nat.cast_nonneg _
  have most : (byte.toNat : ℚ) ≤ 255 := by
    exact_mod_cast Nat.le_of_lt_succ byte.toNat_lt
  refine ⟨nearest_nonneg (by linarith), ?_⟩
  rw [← nearest32_full]
  exact nearest_mono .binary32 (by linarith)

/-- Adding bytes to a single one after another rounds after each of them. -/
theorem reads_foldl_add (block : List UInt8) {x : Float32} {sum : ℚ} (read : Reads x sum)
    (nonneg : 0 ≤ sum) (below : sum ≤ 2 ^ 32) :
    Reads (block.foldl (fun sum value => sum + Element.toSingle value) x)
        (block.foldl (fun sum byte => nearest32 (sum + byte.toNat)) sum) ∧
      0 ≤ block.foldl (fun sum byte => nearest32 (sum + byte.toNat)) sum ∧
      block.foldl (fun sum byte => nearest32 (sum + byte.toNat)) sum ≤ 2 ^ 32 := by
  -- The sum stays between zero and the point where it no longer grows.
  induction block generalizing x sum with
  | nil => exact ⟨read, nonneg, below⟩
  | cons byte rest ih =>
    obtain ⟨least, most⟩ := nearest32_add_bounds nonneg below byte
    refine ih (read.add (reads_toFloat32 byte) ?_) least most
    rw [abs_of_nonneg least]
    exact most.trans_lt (by norm_num)

/-- The sum of a block is read as the sum that is rounded after every addition. -/
theorem reads_runningSum (block : List UInt8) :
    Reads (block.foldl (fun sum value => sum + Element.toSingle value) Scalar.zero)
        (runningSum block) ∧
      0 ≤ runningSum block ∧ runningSum block ≤ 2 ^ 32 :=
  reads_foldl_add block reads_zero le_rfl (by norm_num)

/-- A positive count is not rounded below one. -/
theorem one_le_nearest32 {n : Nat} (positive : 0 < n) : 1 ≤ nearest32 n := by
  -- One is a single, so rounding does not fall below it.
  have one := nearest32_natCast (n := 1) (by norm_num)
  rw [Nat.cast_one] at one
  rw [← one]
  exact nearest_mono .binary32 (by exact_mod_cast positive)

/-- The reciprocal of a positive count lies between zero and one. -/
theorem reciprocal_bounds {n : Nat} (positive : 0 < n) : 0 ≤ reciprocal n ∧ reciprocal n ≤ 1 := by
  -- A count is not rounded below one, so its reciprocal is not rounded above one.
  have size := one_le_nearest32 positive
  unfold reciprocal
  split
  · have one := nearest32_natCast (n := 1) (by norm_num)
    rw [Nat.cast_one] at one
    refine ⟨nearest_nonneg (by positivity), ?_⟩
    rw [← one]
    refine nearest_mono .binary32 ?_
    rw [one]
    exact (div_le_one (by linarith)).mpr size
  · norm_num

/-- The reciprocal of a positive count is read as it is defined. -/
theorem reads_reciprocal {n : Nat} (positive : 0 < n) :
    Reads (Scalar.one / Scalar.ofNat n : Float32) (reciprocal n) := by
  -- A count is a single or infinite, and dividing one by it is never exceptional.
  have size := one_le_nearest32 positive
  obtain ⟨least, most⟩ := reciprocal_bounds positive
  unfold reciprocal at least most ⊢
  split
  · rename_i finite
    rw [if_pos finite] at least most
    have count : Reads (single n) (nearest32 n) :=
      reads_single n (by rwa [abs_of_nonneg (by linarith)])
    refine reads_one.div count (by linarith) ?_
    rw [abs_of_nonneg least]
    exact most.trans_lt (by norm_num)
  · rename_i infinite
    exact reads_one.div_infinity (unpack_single_of_le (not_lt.mp infinite))

/-- The mean of a block of bytes, as the single that it is. -/
theorem reads_mean {across down : Nat} {block : List UInt8} (size : block.length = across * down)
    (positive : 0 < block.length) :
    Reads (mean across down block : Float32) (singleMean block) := by
  -- The sum and the reciprocal are bounded, so their product is far below the limit.
  obtain ⟨sum, low, high⟩ := reads_runningSum block
  obtain ⟨least, most⟩ := reciprocal_bounds positive
  have inverse := reads_reciprocal positive
  rw [singleMean]
  rw [size] at inverse least most ⊢
  refine sum.mul inverse ?_
  have held : nearest32 (2 ^ 32) = 2 ^ 32 := by
    have := nearest_eq_self .binary32 (n := 1) (e := 32) (by decide) (by decide)
    norm_num at this
    exact this
  rw [abs_of_nonneg (nearest_nonneg (mul_nonneg low least))]
  refine ((nearest_mono .binary32 ?_).trans_eq held).trans_lt (by norm_num)
  exact (mul_le_of_le_one_right low most).trans high

/-- Bytes add up to at most 255 for each of them. -/
theorem sum_le (block : List UInt8) : (block.map UInt8.toNat).sum ≤ 255 * block.length := by
  -- Every byte is at most 255.
  have bound := List.sum_le_card_nsmul (block.map UInt8.toNat) 255 fun value member => by
    obtain ⟨byte, -, rfl⟩ := List.mem_map.mp member
    exact Nat.le_of_lt_succ byte.toNat_lt
  rw [List.length_map, nsmul_eq_mul, Nat.cast_id, Nat.mul_comm] at bound
  exact bound

/-- The mean of bytes is a byte's number or lies between two of them. -/
theorem exactMean_bounds (block : List UInt8) : 0 ≤ exactMean block ∧ exactMean block ≤ 255 := by
  -- Each byte is at most 255, and a mean is no more than the largest.
  refine ⟨by unfold exactMean; positivity, div_le_of_le_mul₀ (by positivity) (by norm_num) ?_⟩
  exact_mod_cast sum_le block

/-- The rounded mean is nearest to the mean. -/
theorem roundedMean_bounds (block : List UInt8) :
    roundedMean block ≤ exactMean block + 1 / 2 ∧ exactMean block < roundedMean block + 1 / 2 := by
  -- The mean is not negative, so its floor is a natural number.
  have nonneg := (exactMean_bounds block).1
  have whole : ((roundedMean block : ℤ) : ℚ) = ⌊exactMean block + 1 / 2⌋ := by
    rw [roundedMean, Int.toNat_of_nonneg (Int.floor_nonneg.mpr (by linarith))]
  rw [Int.cast_natCast] at whole
  rw [whole]
  have below := Int.lt_floor_add_one (exactMean block + 1 / 2)
  exact ⟨Int.floor_le _, by linarith⟩

/-- The rounded mean is a byte's number. -/
theorem roundedMean_le (block : List UInt8) : roundedMean block ≤ 255 := by
  -- The rounded mean is less than a half above the mean, which is at most 255.
  have near := (roundedMean_bounds block).1
  have most := (exactMean_bounds block).2
  have below : (roundedMean block : ℚ) < 256 := by linarith
  exact Nat.le_of_lt_succ (by exact_mod_cast below)

/-- The number is at most a half below the rounded mean and less than a half above it, the largest
byte standing for what lies beyond it too. -/
def Near (block : List UInt8) (number : ℚ) : Prop :=
  (roundedMean block : ℚ) - 1 / 2 ≤ number ∧
    (roundedMean block = 255 ∨ number < roundedMean block + 1 / 2)

/-- A number that is not negative is not far below zero, where that is the rounded mean. -/
theorem near_iff {block : List UInt8} {number : ℚ} (nonneg : 0 ≤ number) :
    ((roundedMean block = 0 ∨ (roundedMean block : ℚ) - 1 / 2 ≤ number) ∧
      (roundedMean block = 255 ∨ number < roundedMean block + 1 / 2)) ↔ Near block number := by
  -- At zero the lower bound says nothing that the number does not say.
  refine and_congr_left fun _ => ⟨fun close => ?_, .inr⟩
  rcases close with zero | close
  · rw [zero, Nat.cast_zero]
    linarith
  · exact close

/-- The byte stored for a block is its rounded mean exactly when the mean in singles is near it. -/
theorem toNat_ofSingle_mean_iff {across down : Nat} {block : List UInt8}
    (size : block.length = across * down) (positive : 0 < block.length) :
    (Byte.ofSingle (mean across down block)).toNat = roundedMean block ↔ Kept block := by
  -- The mean in singles is not negative.
  have low := (reads_runningSum block).2.1
  have least := (reciprocal_bounds positive).1
  rw [Byte.toNat_ofSingle_eq_iff (reads_mean size positive) (roundedMean_le block)]
  exact near_iff (nearest_nonneg (mul_nonneg low least))

/-- A sum of bytes that stays below 24 digits is not rounded. -/
theorem foldl_nearest32_eq (block : List UInt8) (start : Nat)
    (short : start + 255 * block.length < 2 ^ 24) :
    block.foldl (fun sum byte => nearest32 (sum + byte.toNat)) (start : ℚ) =
      (start + (block.map UInt8.toNat).sum : Nat) := by
  -- Every partial sum has at most 24 digits.
  induction block generalizing start with
  | nil => rfl
  | cons byte rest ih =>
    have limit := byte.toNat_lt
    rw [List.length_cons] at short
    have exact : nearest32 ((start : ℚ) + byte.toNat) = (start + byte.toNat : Nat) := by
      rw [← Nat.cast_add]
      exact nearest32_natCast (by omega)
    rw [List.foldl_cons, exact, ih (start + byte.toNat) (by omega), List.map_cons, List.sum_cons,
      Nat.add_assoc]

/-- Up to 65793 bytes are summed without rounding. -/
theorem runningSum_eq_sum {block : List UInt8} (short : 255 * block.length < 2 ^ 24) :
    runningSum block = (block.map UInt8.toNat).sum := by
  -- No partial sum has more digits than a single.
  have sum := foldl_nearest32_eq block 0 (by omega)
  rw [Nat.zero_add, Nat.cast_zero] at sum
  exact sum

/-- The reciprocal of a count of at most 24 digits is rounded once. -/
theorem reciprocal_eq {n : Nat} (short : n < 2 ^ 24) : reciprocal n = nearest32 (1 / n) := by
  -- A size with few digits is a single, and far from the largest one.
  have moderate : (n : ℚ) < 2 ^ 128 := by exact_mod_cast short.trans (by norm_num)
  rw [reciprocal, nearest32_natCast short, if_pos moderate]

/-- The reciprocal of a power of two is not rounded. -/
theorem reciprocal_two_pow {k : Nat} (short : k < 24) : reciprocal (2 ^ k) = 1 / 2 ^ k := by
  -- The reciprocal of a power of two has a single digit.
  have least : Format.binary32.minExponent = -149 := rfl
  have held := nearest_div_two_pow .binary32 (n := 1) (j := k) (by decide) (by omega)
  rw [reciprocal_eq (Nat.pow_lt_pow_right (by norm_num) short), Nat.cast_pow, Nat.cast_ofNat]
  exact_mod_cast held

/-- Multiplying by a rounded reciprocal moves the mean of bytes by at most a fraction of 255. -/
theorem abs_product_sub_mean_le (format : Format)
    (least : format.minExponent + format.mantissaBits - 1 ≤ -52) {block : List UInt8}
    (nonempty : 0 < block.length) (short : block.length ≤ 2 ^ 52) :
    |(block.map UInt8.toNat).sum * nearest format (1 / block.length) - exactMean block| ≤
      255 / 2 ^ format.mantissaBits := by
  -- The product is off by the relative error of the reciprocal, and the mean is at most 255.
  obtain ⟨nonneg, bound⟩ := exactMean_bounds block
  have count : (block.length : ℚ) ≠ 0 := by exact_mod_cast nonempty.ne'
  have near := abs_mul_reciprocal_sub_one_le format least nonempty short
  have factored : (block.map UInt8.toNat).sum * nearest format (1 / block.length) -
      exactMean block =
        exactMean block * (block.length * nearest format (1 / block.length) - 1) := by
    rw [exactMean]
    field_simp
  have moved := mul_le_mul bound near (abs_nonneg _) (by norm_num)
  rw [mul_one_div] at moved
  rwa [factored, abs_mul, abs_of_nonneg nonneg]

/-- A mean that is not a half lies at least a half of a share away from the halves. -/
theorem exactMean_gap {block : List UInt8} (nonempty : 0 < block.length) {n : ℤ}
    (other : exactMean block ≠ n / 2) : 1 / (2 * block.length) ≤ |exactMean block - n / 2| := by
  -- The mean and a half differ by a fraction whose denominator is twice the count.
  have count : (0 : ℚ) < block.length := by exact_mod_cast nonempty
  rw [exactMean] at other ⊢
  generalize (block.map UInt8.toNat).sum = total at other ⊢
  have difference : (total : ℚ) / block.length - n / 2 =
      ((2 * total - n * block.length : ℤ) : ℚ) / (2 * block.length) := by
    push_cast
    field_simp
  -- A whole number that is not zero is at least one in magnitude.
  have nonzero : 2 * (total : ℤ) - n * block.length ≠ 0 := by
    intro zero
    rw [zero, Int.cast_zero, zero_div, sub_eq_zero] at difference
    exact other difference
  rw [difference, abs_div, abs_of_pos (by positivity : (0 : ℚ) < 2 * block.length)]
  gcongr
  exact_mod_cast Int.one_le_abs nonzero

/-- A product that is nearer to the mean than half the distance of the next half is rounded to near
the mean, unless the mean is a half and the product is rounded to below it. -/
theorem near_nearest_iff (format : Format) (least : format.minExponent ≤ -format.mantissaBits)
    {places : Nat} (digits : places + 9 ≤ format.mantissaBits) {block : List UInt8}
    (nonempty : 0 < block.length) (short : 2 * block.length ≤ 2 ^ places) {product : ℚ}
    (close : |product - exactMean block| ≤ 1 / 2 ^ (places + 1)) :
    Near block (nearest format product) ↔ (exactMean block + 1 / 2 = roundedMean block →
      exactMean block ≤ nearest format product) := by
  obtain ⟨low, high⟩ := roundedMean_bounds block
  obtain ⟨below, above⟩ := abs_le.mp close
  have gap : 2 * (1 / 2 ^ (places + 1)) ≤ (1 : ℚ) / (2 * block.length) := by
    have most : (2 * block.length : ℚ) ≤ 2 ^ places := by exact_mod_cast short
    have count : (0 : ℚ) < block.length := by exact_mod_cast nonempty
    calc (2 : ℚ) * (1 / 2 ^ (places + 1)) = 1 / 2 ^ places := by
          rw [pow_succ]
          field_simp
      _ ≤ 1 / (2 * block.length) := by gcongr
  have largest := roundedMean_le block
  rw [Near]
  generalize roundedMean block = k at low high largest ⊢
  -- The product is nearer to the mean than the next half is.
  have upper : nearest format product < k + 1 / 2 := by
    have apart := gap.trans (exactMean_gap nonempty (n := 2 * k + 1) (by push_cast; linarith))
    rw [abs_sub_comm, abs_of_pos (by push_cast; linarith)] at apart
    push_cast at apart
    exact nearest_lt_half least largest digits (by linarith)
  refine ⟨fun kept whole => ?_, fun keeps => ⟨?_, .inr upper⟩⟩
  -- At a half the lower bound is the mean itself.
  · have least := kept.1
    linarith
  · rcases low.eq_or_lt with whole | inside
    · have least := keeps whole.symm
      linarith
    -- Off a half the product is still above the half below.
    · have apart := gap.trans (exactMean_gap nonempty (n := 2 * k - 1) (by push_cast; linarith))
      rw [abs_of_pos (by push_cast; linarith)] at apart
      push_cast at apart
      have unit : (0 : ℚ) < 1 / 2 ^ (places + 1) := by positivity
      exact half_le_nearest least largest (by omega) (by linarith)

/-- A block of at most 16384 bytes keeps its rounded mean unless its mean is a half that the
rounded reciprocal takes away from. -/
theorem kept_iff_of_length_le {block : List UInt8} (nonempty : 0 < block.length)
    (short : block.length ≤ 2 ^ 14) :
    Kept block ↔ (exactMean block + 1 / 2 = roundedMean block →
      exactMean block ≤ singleMean block) := by
  -- The product is so near the mean that rounding matters at halves alone.
  have close : |runningSum block * reciprocal block.length - exactMean block| ≤
      1 / 2 ^ (15 + 1) := by
    have moved := abs_product_sub_mean_le .binary32 (by decide) nonempty (by omega)
    rw [runningSum_eq_sum (by omega), reciprocal_eq (by omega)]
    refine moved.trans ?_
    show (255 : ℚ) / 2 ^ 24 ≤ _
    norm_num
  exact near_nearest_iff .binary32 (by decide) (by decide) nonempty (by omega) close

/-- The mean of a power of two of bytes, of at most 65536, is not rounded. -/
theorem singleMean_eq_exactMean {block : List UInt8} {k : Nat} (size : block.length = 2 ^ k)
    (short : k ≤ 16) : singleMean block = exactMean block := by
  have few : 2 ^ k ≤ 2 ^ 16 := Nat.pow_le_pow_right (by norm_num) short
  have bound := sum_le block
  have least : Format.binary32.minExponent = -149 := rfl
  have digits : (2 : Nat) ^ Format.binary32.mantissaBits = 2 ^ 24 := rfl
  -- The sum has few digits and only its exponent changes.
  rw [singleMean, exactMean, runningSum_eq_sum (by omega), size, reciprocal_two_pow (by omega),
    mul_one_div, Nat.cast_pow, Nat.cast_ofNat]
  exact nearest_div_two_pow .binary32 (by omega) (by omega)

/-- A block of a power of two of bytes, and of at most 65536, keeps its rounded mean. -/
theorem kept_of_length_eq_two_pow {block : List UInt8} {k : Nat} (size : block.length = 2 ^ k)
    (short : k ≤ 16) : Kept block := by
  -- The mean is exact.
  obtain ⟨low, high⟩ := roundedMean_bounds block
  rw [Kept, singleMean_eq_exactMean size short]
  exact ⟨by linarith, .inr high⟩

/-- A block of at most 16384 equal bytes keeps their value. -/
theorem kept_replicate {n : Nat} (byte : UInt8) (nonempty : 0 < n) (short : n ≤ 2 ^ 14) :
    Kept (List.replicate n byte) ∧ roundedMean (List.replicate n byte) = byte.toNat := by
  -- The mean of equal bytes is their value, which is not a half.
  have count : (n : ℚ) ≠ 0 := by exact_mod_cast nonempty.ne'
  have mean : exactMean (List.replicate n byte) = byte.toNat := by
    rw [exactMean, List.map_replicate, List.sum_replicate, List.length_replicate, nsmul_eq_mul]
    push_cast
    field_simp
  have rounded : roundedMean (List.replicate n byte) = byte.toNat := by
    have floor : ⌊(byte.toNat : ℚ) + 1 / 2⌋ = byte.toNat := by
      rw [Int.floor_eq_iff]
      push_cast
      constructor <;> linarith
    rw [roundedMean, mean, floor, Int.toNat_natCast]
  refine ⟨(kept_iff_of_length_le (by simpa) (by simpa)).mpr fun half => ?_, rounded⟩
  rw [mean, rounded] at half
  linarith

/-- The blocks of a destination have as many samples as the two factors say. -/
theorem length_block {α : Type} (sample : Nat → Nat → α) (across down y x : Nat) :
    (block sample across down y x).length = across * down := by
  simp [block, positions, Nat.mul_comm]

end Raster.Area.Blocks

namespace Raster

open Area.Blocks

/-- Averaging bytes over blocks always finishes, and a visible sample of the target is the rounded
mean of its block exactly when the mean that singles form of the block is near that. -/
theorem resize_blocks_eq_roundedMean_iff {channels across down : Nat}
    {source target : View UInt8 channels} (accepted : checkChannels channels = .ok ())
    (planned : Area.plan? source.extent target.extent = some (.blocks across down)) :
    ∃ sample written, source.Shows sample ∧ resize .area source target = .ok (some written) ∧
      written.layout = target.layout ∧
      ∀ y x c, y < target.layout.height → x < target.layout.width → c < channels →
        ∃ stored, written.sample? y x c = some stored ∧
          (stored.toNat =
              roundedMean (block (fun row column => sample row column c) across down y x) ↔
            Kept (block (fun row column => sample row column c) across down y x)) := by
  obtain ⟨sample, shows⟩ := source.exists_shows
  obtain ⟨written, finished, layout, means⟩ := exists_resize_blocks accepted planned shows
  refine ⟨sample, written, shows, finished, layout, fun y x c inImage inRow inPixel => ?_⟩
  rw [← layout] at inImage inRow
  refine ⟨_, means y x c inImage inRow inPixel, ?_⟩
  -- A source that has samples splits into blocks that have samples.
  have positive : 0 < across * down := by
    rw [Area.plan?_eq_plan target.fits.height_pos target.fits.width_pos,
      Option.some.injEq] at planned
    obtain ⟨rows, columns⟩ : source.layout.height = target.layout.height * down ∧
      source.layout.width = target.layout.width * across := Area.tiles_of_plan planned
    have tall := source.fits.height_pos
    have wide := source.fits.width_pos
    rw [rows] at tall
    rw [columns] at wide
    exact Nat.mul_pos (Nat.pos_of_mul_pos_left wide) (Nat.pos_of_mul_pos_left tall)
  have size := length_block (fun row column => sample row column c) across down y x
  exact toNat_ofSingle_mean_iff size (by omega)

/-- A row of two bytes. -/
def twoBytes : View UInt8 1 := ⟨⟨1, 2, 2⟩, #[3, 4], Layout.check_eq_ok_iff.mp rfl⟩

/-- A row of a single byte. -/
def oneByte : View UInt8 1 := ⟨⟨1, 1, 1⟩, #[7], Layout.check_eq_ok_iff.mp rfl⟩

/-- Two bytes are averaged to the larger one of the two nearest to their mean. -/
theorem resize_blocks_twoBytes : checkChannels 1 = .ok () ∧
    Area.plan? twoBytes.extent oneByte.extent = some (.blocks 2 1) ∧
    ∃ written stored, resize .area twoBytes oneByte = .ok (some written) ∧
      written.sample? 0 0 0 = some stored ∧ stored.toNat = 4 := by
  obtain ⟨sample, written, shows, finished, -, stored⟩ :=
    @resize_blocks_eq_roundedMean_iff 1 2 1 twoBytes oneByte rfl rfl
  obtain ⟨byte, read, iff⟩ := stored 0 0 0 (by decide) (by decide) (by decide)
  have first : sample 0 0 0 = 3 := (Option.some.inj (shows 0 0 0 (by decide) (by decide)
    (by decide))).symm
  have second : sample 0 1 0 = 4 := (Option.some.inj (shows 0 1 0 (by decide) (by decide)
    (by decide))).symm
  -- The only block is the row itself.
  have bytes : block (fun row column => sample row column 0) 2 1 0 0 = [3, 4] := by
    rw [← first, ← second]
    rfl
  rw [bytes] at iff
  refine ⟨rfl, rfl, written, byte, finished, read, ?_⟩
  rw [iff.mpr (kept_of_length_eq_two_pow (k := 1) rfl (by norm_num))]
  decide +kernel

/-- A row of 82 bytes whose mean is a half. -/
def halfRow : View UInt8 1 :=
  ⟨⟨1, 82, 82⟩, #[41] ++ Array.replicate 81 0, Layout.check_eq_ok_iff.mp rfl⟩

/-- The mean of 82 bytes is a half and rounds to one, but zero is stored. -/
theorem resize_blocks_halfRow : Area.plan? halfRow.extent oneByte.extent = some (.blocks 82 1) ∧
    roundedMean halfRow.data.toList = 1 ∧
    ∃ written, resize .area halfRow oneByte = .ok (some written) ∧
      written.sample? 0 0 0 = some 0 := by
  obtain ⟨sample, shows⟩ := halfRow.exists_shows
  -- The mean is 41 / 82, and the sum times the rounded reciprocal falls short of it.
  have planned : Area.plan? halfRow.extent oneByte.extent = some (.blocks 82 1) := rfl
  obtain ⟨written, finished, -⟩ := exists_resize_blocks rfl planned shows
  have read : ((resize .area halfRow oneByte).toOption.join.bind
      fun written => written.sample? 0 0 0) = some 0 := by decide +kernel
  rw [finished] at read
  exact ⟨planned, by decide +kernel, written, finished, read⟩

end Raster
