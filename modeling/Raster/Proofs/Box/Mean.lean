import Raster.Proofs.Binary.Multiples
import Raster.Proofs.Box.Exact
import Raster.Proofs.Resize.BlockMean

/-!
Means of bytes under a window.  Main statement: `boxFilter_eq_roundedMean_iff`, a normalized filter
stores the mean that doubles form of its window, rounded, which is the rounded mean of the window
exactly when the mean in doubles rounds to it, and a window of given size always does so exactly
when the size is odd or it times its rounded reciprocal is not rounded to below one.
-/

namespace Raster

open Binary
open Area.Blocks (exactMean roundedMean Near)

/-- The mean of bytes as doubles form it: their sum times the rounded reciprocal of their number. -/
def doubleMean (samples : List UInt8) : ℚ :=
  nearest64 ((samples.map UInt8.toNat).sum * nearest64 (1 / samples.length))

/-- The mean in doubles rounded to the nearest whole number, halves away from zero, as far as bytes
reach. -/
def storedMean (samples : List UInt8) : Nat := min 255 ⌊doubleMean samples + 1 / 2⌋.toNat

/-- Every list of that many bytes has its mean in doubles near its rounded mean. -/
def Faithful (n : Nat) : Prop :=
  ∀ samples : List UInt8, samples.length = n → Near samples (doubleMean samples)

/-- The mean in doubles of at most 2 ^ 43 bytes is near their rounded mean, unless their mean is a
half that the rounded reciprocal takes away from. -/
theorem near_doubleMean_iff {samples : List UInt8} (nonempty : 0 < samples.length)
    (short : samples.length ≤ 2 ^ 43) :
    Near samples (doubleMean samples) ↔ (exactMean samples + 1 / 2 = roundedMean samples →
      exactMean samples ≤ doubleMean samples) := by
  -- The product is nearer to the mean than the mean of so few bytes is to any half that it is not.
  have close := Area.Blocks.abs_product_sub_mean_le .binary64 (by decide) nonempty
    (by omega)
  have small : (255 : ℚ) / 2 ^ Float.Model.Format.binary64.mantissaBits ≤ 1 / 2 ^ (44 + 1) := by
    show (255 : ℚ) / 2 ^ 53 ≤ _
    norm_num
  exact Area.Blocks.near_nearest_iff .binary64 (by decide) (by decide) nonempty (by omega)
    (close.trans small)

/-- A count of at most 52 digits times its rounded reciprocal is nearly one. -/
theorem count_mul_reciprocal_bounds {n : Nat} (nonempty : 0 < n) (short : n ≤ 2 ^ 52) :
    1 / 2 ≤ n * nearest64 (1 / n) ∧ n * nearest64 (1 / n) ≤ 2 := by
  -- The reciprocal is rounded once, so the product is near one.
  have near := abs_mul_reciprocal_sub_one_le .binary64 (by decide) nonempty short
  have place : (1 : ℚ) / 2 ^ Float.Model.Format.binary64.mantissaBits ≤ 1 / 2 := by
    show (1 : ℚ) / 2 ^ 53 ≤ _
    norm_num
  obtain ⟨low, high⟩ := abs_le.mp near
  constructor <;> linarith

/-- Where the mean is a multiple of a half, the mean in doubles is half of what the same multiple of
the count, times the rounded reciprocal, is rounded to. -/
theorem doubleMean_of_half {samples : List UInt8} {m : Nat} (nonempty : 0 < samples.length)
    (short : samples.length ≤ 2 ^ 52) (positive : 0 < m)
    (half : 2 * (samples.map UInt8.toNat).sum = m * samples.length) :
    doubleMean samples =
      nearest64 (m * (samples.length * nearest64 (1 / samples.length))) / 2 := by
  obtain ⟨low, -⟩ := count_mul_reciprocal_bounds nonempty short
  have one : (1 : ℚ) ≤ m := by exact_mod_cast positive
  have twice : (2 : ℚ) * (samples.map UInt8.toNat).sum = m * samples.length := by
    exact_mod_cast half
  -- What is rounded is half of something near `m`, so it has all its digits.
  have product : (samples.map UInt8.toNat).sum * nearest64 (1 / samples.length) =
      m * (samples.length * nearest64 (1 / samples.length)) / 2 := by
    linear_combination nearest64 (1 / samples.length) / 2 * twice
  rw [doubleMean, product]
  refine nearest_half .binary64 ?_
  calc (2 : ℚ) ^ (Float.Model.Format.binary64.minExponent +
        Float.Model.Format.binary64.mantissaBits) ≤ 2 ^ (-1 : ℤ) :=
        zpow_le_zpow_right₀ (by norm_num) (by decide)
    _ = 1 / 2 := by norm_num
    _ ≤ samples.length * nearest64 (1 / samples.length) := low
    _ ≤ m * (samples.length * nearest64 (1 / samples.length)) :=
        le_mul_of_one_le_left (by linarith) one

/-- A count that is not faithful shows on as many bytes, half of them one and half of them zero. -/
theorem one_le_of_faithful {n : Nat} (nonempty : 0 < n) (short : n ≤ 2 ^ 43) (even : n % 2 = 0)
    (faithful : Faithful n) : 1 ≤ nearest64 (n * nearest64 (1 / n)) := by
  have size : (List.replicate (n / 2) (1 : UInt8) ++ List.replicate (n / 2) 0).length = n := by
    simp only [List.length_append, List.length_replicate]
    omega
  have total : ((List.replicate (n / 2) (1 : UInt8) ++ List.replicate (n / 2) 0).map
      UInt8.toNat).sum = n / 2 := by
    simp
  -- The mean of those is a half, so nothing may be lost from it.
  have near := (faithful _ size).1
  generalize List.replicate (n / 2) (1 : UInt8) ++ List.replicate (n / 2) 0 = samples
    at size total near
  subst size
  have double := doubleMean_of_half (m := 1) nonempty (by omega) one_pos (by omega)
  have mean : exactMean samples = 1 / 2 := by
    have count : (samples.length : ℚ) ≠ 0 := by exact_mod_cast nonempty.ne'
    have twice : (2 : ℚ) * (samples.map UInt8.toNat).sum = samples.length := by
      exact_mod_cast (by omega : 2 * (samples.map UInt8.toNat).sum = samples.length)
    rw [exactMean, div_eq_div_iff count (by norm_num)]
    linarith
  have rounded : roundedMean samples = 1 := by
    rw [roundedMean, mean]
    norm_num
  rw [rounded, double, Nat.cast_one, one_mul] at near
  linarith

/-- All lists of at most 2 ^ 43 bytes of one length have their means near in doubles exactly when
the length is odd, so that no mean is a half, or it times its rounded reciprocal is not rounded to
below one. -/
theorem faithful_iff {n : Nat} (nonempty : 0 < n) (short : n ≤ 2 ^ 43) :
    Faithful n ↔ n % 2 = 1 ∨ 1 ≤ nearest64 (n * nearest64 (1 / n)) := by
  constructor
  · intro faithful
    exact (Nat.mod_two_eq_zero_or_one n).symm.imp_right fun even =>
      one_le_of_faithful nonempty short even faithful
  · -- Only a mean that is a half can be stored as another byte than its rounded mean.
    rintro close samples rfl
    refine (near_doubleMean_iff nonempty short).mpr fun half => ?_
    have count : (samples.length : ℚ) ≠ 0 := by exact_mod_cast nonempty.ne'
    have positive : 0 < roundedMean samples := by
      have nonneg := (Area.Blocks.exactMean_bounds samples).1
      exact_mod_cast (by linarith : (0 : ℚ) < roundedMean samples)
    -- The mean is an odd multiple of a half.
    obtain ⟨k, same⟩ := Nat.exists_eq_add_of_lt positive
    have byte := Area.Blocks.roundedMean_le samples
    have mean : exactMean samples = (2 * k + 1 : Nat) / 2 := by
      rw [same] at half
      push_cast at half ⊢
      linarith
    have twice : 2 * (samples.map UInt8.toNat).sum = (2 * k + 1) * samples.length := by
      rw [exactMean, div_eq_div_iff count (by norm_num), mul_comm] at mean
      exact_mod_cast mean
    rcases close with odd | close
    · -- An odd number of samples, and an odd multiple of a half, would make twice their sum odd.
      have parity := congrArg (· % 2) twice
      simp [Nat.mul_mod, Nat.add_mod, odd] at parity
    · -- Multiples of what is not rounded to below one are not rounded to below themselves.
      obtain ⟨low, -⟩ := count_mul_reciprocal_bounds nonempty (by omega)
      have held := natCast_le_nearest64_mul (m := 2 * k + 1) (by omega) (by linarith) close
      rw [mean, doubleMean_of_half nonempty (by omega) (by omega) twice]
      linarith

/-- A sum of bytes times the rounded reciprocal of their number lies between zero and 256. -/
theorem product_bounds {samples : List UInt8} (nonempty : 0 < samples.length)
    (short : samples.length ≤ 2 ^ 52) :
    0 ≤ (samples.map UInt8.toNat).sum * nearest64 (1 / samples.length) ∧
      (samples.map UInt8.toNat).sum * nearest64 (1 / samples.length) ≤ 256 := by
  -- The product is near the mean, which is that of a byte.
  have close := Area.Blocks.abs_product_sub_mean_le .binary64 (by decide) nonempty short
  have place : (255 : ℚ) / 2 ^ Float.Model.Format.binary64.mantissaBits ≤ 1 := by
    show (255 : ℚ) / 2 ^ 53 ≤ _
    norm_num
  have high := (abs_le.mp close).2
  have most := (Area.Blocks.exactMean_bounds samples).2
  exact ⟨mul_nonneg (Nat.cast_nonneg _) (nearest_nonneg (by positivity)), by linarith⟩

/-- So does the mean in doubles. -/
theorem doubleMean_bounds {samples : List UInt8} (nonempty : 0 < samples.length)
    (short : samples.length ≤ 2 ^ 52) : 0 ≤ doubleMean samples ∧ doubleMean samples ≤ 256 := by
  -- Doubles hold 256, so rounding does not pass it.
  obtain ⟨nonneg, most⟩ := product_bounds nonempty short
  refine ⟨nearest_nonneg nonneg, ?_⟩
  have limit : ((256 : Nat) : ℚ) = 256 := Nat.cast_ofNat
  rw [← limit] at most ⊢
  exact nearest64_le_natCast (by norm_num) most

namespace BoxWindow

/-- A normalized window turns an exact sum of bytes into their mean in doubles. -/
theorem reads_scaled {window : BoxWindow} (normalized : window.normalize = true)
    {samples : List UInt8} (size : samples.length = window.width * window.height)
    (nonempty : 0 < samples.length) (short : 255 * samples.length < 2 ^ 53) :
    ReadsDouble (window.scaled (double (samples.map UInt8.toNat).sum)) (doubleMean samples) := by
  have total := Area.Blocks.sum_le samples
  have count : (1 : ℚ) ≤ samples.length := by exact_mod_cast nonempty
  have sides : double window.width * double window.height = double samples.length := by
    rw [size] at nonempty short ⊢
    have wide := Nat.le_mul_of_pos_right window.width (Nat.pos_of_mul_pos_left nonempty)
    have tall := Nat.le_mul_of_pos_left window.height (Nat.pos_of_mul_pos_right nonempty)
    exact double_mul (by omega) (by omega) (by omega)
  -- The one operation before the product that is rounded is the reciprocal.
  have one : ReadsDouble (double 1) 1 := by
    exact_mod_cast readsDouble_double (n := 1) (by norm_num)
  have inverse : ReadsDouble (double 1 / double samples.length)
      (nearest64 (1 / samples.length)) :=
    one.div (readsDouble_double (by omega)) (by linarith)
      (moderate_of_le (by positivity) ((div_le_one (by linarith)).mpr count |>.trans (by norm_num)))
  have scale : (Scalar.one / (Scalar.ofNat window.width * Scalar.ofNat window.height) : Float) =
      double 1 / double samples.length := congrArg (double 1 / ·) sides
  rw [scaled, if_pos normalized, scale]
  obtain ⟨nonneg, most⟩ := product_bounds nonempty (by omega)
  exact (readsDouble_double (by omega)).mul inverse
    (moderate_of_le nonneg (most.trans (by norm_num)))

/-- The byte stored for the sum of a normalized window is its mean in doubles, rounded. -/
theorem toNat_ofDouble_scaled {window : BoxWindow} (normalized : window.normalize = true)
    {samples : List UInt8} (size : samples.length = window.width * window.height)
    (nonempty : 0 < samples.length) (short : 255 * samples.length < 2 ^ 53) :
    (Byte.ofDouble (window.scaled (double (samples.map UInt8.toNat).sum))).toNat =
      storedMean samples := by
  -- The product is neither negative nor above 256, where rounding would leave the bytes.
  obtain ⟨nonneg, most⟩ := doubleMean_bounds nonempty (by omega)
  exact Byte.toNat_ofDouble (reads_scaled normalized size nonempty short) nonneg (by linarith)

/-- The stored mean is the rounded mean exactly when the mean in doubles is near that. -/
theorem storedMean_eq_roundedMean_iff {samples : List UInt8} (nonempty : 0 < samples.length)
    (short : samples.length ≤ 2 ^ 52) :
    storedMean samples = roundedMean samples ↔ Near samples (doubleMean samples) := by
  -- Both are floors of a number that is not negative.
  have nonneg := (doubleMean_bounds nonempty short).1
  rw [storedMean, Byte.min_floor_eq_iff nonneg (Area.Blocks.roundedMean_le samples)]
  exact Area.Blocks.near_iff nonneg

end BoxWindow

/-- A normalized filter of bytes whose sums have at most 53 digits finishes and stores in each
visible sample of the target the mean that doubles form of its window, rounded. That is the rounded
mean of the window exactly when the mean in doubles is near it. Windows of at most 2 ^ 43 samples
have all their means near exactly when their size is odd or it times its rounded reciprocal is not
rounded to below one. -/
theorem boxFilter_eq_roundedMean_iff {channels : Nat} {window : BoxWindow}
    {source target : View UInt8 channels} {sample : Nat → Nat → Nat → UInt8}
    (normalized : window.normalize = true) (wide : 0 < window.width) (tall : 0 < window.height)
    (accepted : checkChannels channels = .ok ()) (same : source.extent = target.extent)
    (short : 255 * max window.width (2 * source.layout.width) *
      max window.height (2 * source.layout.height) < 2 ^ 53)
    (shows : source.Shows sample) :
    (∃ written, boxFilter window source target = .ok (some written) ∧
      written.layout = target.layout ∧
      ∀ y x c, y < target.layout.height → x < target.layout.width → c < channels →
        ∃ stored, written.sample? y x c = some stored ∧
          stored.toNat = storedMean (window.seen source.layout.height source.layout.width
              (fun line column => sample line column c) y x) ∧
          (stored.toNat = roundedMean (window.seen source.layout.height source.layout.width
              (fun line column => sample line column c) y x) ↔
            Near (window.seen source.layout.height source.layout.width
                (fun line column => sample line column c) y x)
              (doubleMean (window.seen source.layout.height source.layout.width
                (fun line column => sample line column c) y x)))) ∧
    (window.width * window.height ≤ 2 ^ 43 → (Faithful (window.width * window.height) ↔
      window.width * window.height % 2 = 1 ∨
        1 ≤ nearest64 ((window.width * window.height : Nat) *
          nearest64 (1 / (window.width * window.height : Nat))))) := by
  have nonempty : 0 < window.width * window.height := Nat.mul_pos wide tall
  refine ⟨?_, faithful_iff nonempty⟩
  obtain ⟨written, finished, layout, values⟩ := exists_boxFilter_shows window shows accepted same
  refine ⟨written, finished, layout, fun y x c inImage inRow inPixel => ?_⟩
  rw [← layout] at inImage inRow
  refine ⟨_, values y x c inImage inRow inPixel, ?_⟩
  rw [layout] at inImage inRow
  -- The source has the pixels of the target, and the window's samples leave their sum its digits.
  have rows : source.layout.height = target.layout.height := congrArg Extent.height same
  have columns : source.layout.width = target.layout.width := congrArg Extent.width same
  have size := window.length_seen source.layout.height source.layout.width
    (fun line column => sample line column c) y x
  have digits : 255 * (window.width * window.height) < 2 ^ 53 := by
    rw [← Nat.mul_assoc]
    exact (Nat.mul_le_mul (Nat.mul_le_mul_left 255 (Nat.le_max_left _ _))
      (Nat.le_max_left _ _)).trans_lt short
  beta_reduce
  rw [window.sumAt_bytes _ (rows ▸ inImage) (columns ▸ inRow) short]
  have rounded := BoxWindow.toNat_ofDouble_scaled normalized size (by omega) (by omega)
  exact ⟨rounded, (Eq.congr_left rounded).trans
    (BoxWindow.storedMean_eq_roundedMean_iff (by omega) (by omega))⟩

/-- A row of three bytes. -/
def risingBytes : View UInt8 1 := ⟨⟨1, 3, 3⟩, #[0, 1, 1], Layout.check_eq_ok_iff.mp rfl⟩

/-- The samples of the row of three bytes. -/
theorem risingBytes_shows : risingBytes.Shows fun _ x _ => if x = 0 then 0 else 1 :=
  View.shows_of_row rfl (by decide)

/-- The means of three bytes are a third, two thirds and one. -/
theorem boxFilter_risingBytes : checkChannels 1 = .ok () ∧
    255 * max 3 (2 * 3) * max 1 (2 * 1) < 2 ^ 53 ∧
    risingBytes.Shows (fun _ x _ => if x = 0 then 0 else 1) ∧
    ∃ written, boxFilter ⟨3, 1, true, .replicate⟩ risingBytes risingBytes = .ok (some written) ∧
      written.sample? 0 0 0 = some 0 ∧ written.sample? 0 1 0 = some 1 ∧
      written.sample? 0 2 0 = some 1 := by
  obtain ⟨⟨written, finished, -, values⟩, faithful⟩ := @boxFilter_eq_roundedMean_iff 1
    ⟨3, 1, true, .replicate⟩ risingBytes risingBytes _ rfl (by decide) (by decide) rfl rfl
    (by decide) risingBytes_shows
  -- A window of three samples has no mean that is a half.
  have near := (faithful (by decide)).mpr (.inl rfl)
  have stores : ∀ x, x < 3 → ∀ byte : UInt8, roundedMean (BoxWindow.seen
      ⟨3, 1, true, .replicate⟩ 1 3 (fun _ x => if x = 0 then 0 else 1) 0 x) = byte.toNat →
        written.sample? 0 x 0 = some byte := by
    intro x inRow byte rounded
    obtain ⟨stored, read, -, iff⟩ := values 0 x 0 (by decide) inRow (by decide)
    have kept := (iff.mpr (near _ (BoxWindow.length_seen _ _ _ _ _ _))).trans rounded
    rw [read, UInt8.toNat_inj.mp kept]
  exact ⟨rfl, by decide, risingBytes_shows, written, finished,
    stores 0 (by decide) 0 (by decide +kernel), stores 1 (by decide) 1 (by decide +kernel),
    stores 2 (by decide) 1 (by decide +kernel)⟩

/-- A row of two bytes that differ by one. -/
def unequalBytes : View UInt8 1 := ⟨⟨1, 2, 2⟩, #[1, 0], Layout.check_eq_ok_iff.mp rfl⟩

/-- Half of a window of 98 samples at the second byte are one, so its mean rounds to one, but zero
is stored. -/
theorem boxFilter_unequalBytes : 255 * max 98 (2 * 2) * max 1 (2 * 1) < 2 ^ 53 ∧
    unequalBytes.Shows (fun _ x _ => if x = 0 then 1 else 0) ∧
    roundedMean (BoxWindow.seen ⟨98, 1, true, .replicate⟩ 1 2
      (fun _ x => if x = 0 then 1 else 0) 0 1) = 1 ∧
    ∃ written, boxFilter ⟨98, 1, true, .replicate⟩ unequalBytes unequalBytes =
        .ok (some written) ∧ written.sample? 0 1 0 = some 0 := by
  have shows : unequalBytes.Shows fun _ x _ => if x = 0 then 1 else 0 :=
    View.shows_of_row rfl (by decide)
  obtain ⟨written, finished, -⟩ := @exists_boxFilter_shows UInt8 Float32 Float _ _ _ 1 _
    ⟨98, 1, true, .replicate⟩ unequalBytes unequalBytes shows rfl rfl
  have read : ((boxFilter ⟨98, 1, true, .replicate⟩ unequalBytes unequalBytes).toOption.join.bind
      fun written => written.sample? 0 1 0) = some 0 := by decide +kernel
  -- The filter finishes, so this was read from what it has written.
  rw [finished] at read
  exact ⟨by decide, shows, by decide +kernel, written, finished, read⟩

end Raster
