import Mathlib.Order.WithBot
import Raster.Proofs.Binary.Double
import Raster.Proofs.Binary.Extended
import Raster.Proofs.Binary.Sign

/-!
The order of doubles.  Main statements: `lt_iff_rank`, doubles are compared by their places among
the numbers and the two infinities, and `eq_of_readsDouble`, a double without the negative sign is
determined by the number that it is.
-/

namespace Raster.Binary

open Float.Model (Format UnpackedFloat)
open Float.Model.UnpackedFloat

/-- The place among all numbers and both infinities; NaN has none. -/
def Extended.rank : Extended → Option (WithBot (WithTop ℚ))
  -- NaN is below and above nothing.
  | .nan => none
  | .infinite .negative => some ⊥
  | .infinite .positive => some ⊤
  | .number q => some ((q : WithTop ℚ) : WithBot (WithTop ℚ))

/-- The place of a double among all numbers and both infinities. -/
def rank (x : Float) : Option (WithBot (WithTop ℚ)) := (Extended.ofUnpacked x.toModel.unpack).rank

variable {format : Format} {x y : Float} {p q : ℚ} {u v : UnpackedFloat}

/-- A double is NaN, an infinity or a rational. -/
theorem readsDouble_cases (x : Float) : x.toModel.unpack = .notANumber ∨
    (∃ sign, x.toModel.unpack = .infinity sign) ∨ ∃ q, ReadsDouble x q := by
  -- The forms are those of any format, here in another order.
  obtain infinite | nan | number :=
    denotes_unpack .binary64 (by decide) x.toModel.toBits.toBitVec
  · exact .inr (.inl infinite)
  · exact .inl nan
  · exact .inr (.inr number)

/-- A number has its place among the numbers. -/
theorem ReadsDouble.rank_eq (read : ReadsDouble x q) :
    rank x = some ((q : WithTop ℚ) : WithBot (WithTop ℚ)) := by
  rw [rank, ofUnpacked_of_denotes read]
  rfl

/-- NaN has no place. -/
theorem rank_of_notANumber (nan : x.toModel.unpack = .notANumber) : rank x = none := by
  rw [rank, nan]
  rfl

/-- An infinity has its place beyond all numbers on its side. -/
theorem rank_of_infinity {sign : Sign} (infinite : x.toModel.unpack = .infinity sign) :
    rank x = (Extended.infinite sign).rank := by
  rw [rank, infinite]
  rfl

/-- NaN is below nothing and above nothing. -/
theorem not_lt_notANumber (u : UnpackedFloat) :
    UnpackedFloat.lt u .notANumber = false ∧ UnpackedFloat.lt .notANumber u = false := by
  cases u <;> exact ⟨rfl, rfl⟩

/-- An infinity is below a number when it is negative, and above it when it is positive. -/
theorem infinity_lt_iff (sign : Sign) (denotes : Denotes format v q) :
    (UnpackedFloat.lt (.infinity sign) v = true ↔ sign = .negative) ∧
      (UnpackedFloat.lt v (.infinity sign) = true ↔ sign = .positive) := by
  -- By the form of the number and the signs of both.
  cases denotes with
  | zero s => cases sign <;> simp [UnpackedFloat.lt, UnpackedFloat.compare]
  | finite s positive target =>
    cases sign <;> cases s <;> simp [UnpackedFloat.lt, UnpackedFloat.compare]

/-- Doubles are compared by their places, and NaN is neither below nor above anything. -/
theorem lt_iff_rank : x < y ↔ ∃ p ∈ rank x, ∃ q ∈ rank y, p < q := by
  rw [lt_iff_unpack]
  -- Numbers are compared as rationals; an infinity lies beyond them on its side.
  obtain nan | ⟨s, infinite⟩ | ⟨p, read⟩ := readsDouble_cases x
  · rw [rank_of_notANumber nan, nan, (not_lt_notANumber _).2]
    simp
  · rw [rank_of_infinity infinite, infinite]
    obtain nan | ⟨t, infinite'⟩ | ⟨q, read⟩ := readsDouble_cases y
    · rw [rank_of_notANumber nan, nan, (not_lt_notANumber _).1]
      simp
    · rw [rank_of_infinity infinite', infinite']
      cases s <;> cases t <;> simp [Extended.rank, UnpackedFloat.lt, UnpackedFloat.compare]
      all_goals decide
    · rw [read.rank_eq, (infinity_lt_iff s read).1]
      cases s <;> simp [Extended.rank]
  · rw [read.rank_eq]
    obtain nan | ⟨t, infinite⟩ | ⟨q, read'⟩ := readsDouble_cases y
    · rw [rank_of_notANumber nan, nan, (not_lt_notANumber _).1]
      simp
    · rw [rank_of_infinity infinite, infinite, (infinity_lt_iff t read).2]
      cases t with
      | negative => simp [Extended.rank]
      | positive =>
        have below : ((p : WithTop ℚ) : WithBot (WithTop ℚ)) < ⊤ :=
          WithBot.coe_lt_coe.mpr (WithTop.coe_lt_top p)
        simpa [Extended.rank] using below
    · rw [read'.rank_eq, Denotes.lt_iff read read']
      simp

/-- A double below one that is below another is below that other too. -/
theorem lt_of_lt_of_lt {z : Float} (first : x < y) (second : y < z) : x < z := by
  rw [lt_iff_rank] at first second ⊢
  obtain ⟨p, place, q, middle, lower⟩ := first
  obtain ⟨_, again, r, last, upper⟩ := second
  -- The middle float has one rank, so the two orders of ranks join.
  cases middle.symm.trans again
  exact ⟨p, place, r, last, lower.trans upper⟩

/-- A double that has a place is above the one or below the other of two that are apart. -/
theorem lt_or_lt_of_rank {z : Float} (ranked : (rank y).isSome) (apart : x < z) :
    x < y ∨ y < z := by
  obtain ⟨q, middle⟩ := Option.isSome_iff_exists.mp ranked
  rw [lt_iff_rank] at apart
  obtain ⟨p, place, r, last, below⟩ := apart
  -- With a rank of its own it is above the first or not, and then below the last.
  rcases lt_or_ge p q with lower | upper
  · exact .inl (lt_iff_rank.mpr ⟨p, place, q, middle, lower⟩)
  · exact .inr (lt_iff_rank.mpr ⟨q, middle, r, last, upper.trans_lt below⟩)

/-- Without the negative sign the form of a number is determined by the number. -/
theorem Denotes.eq_of_unsigned (first : Denotes format u p) (second : Denotes format v q)
    (equal : p = q) (one : sign? u ≠ some .negative) (two : sign? v ≠ some .negative) : u = v := by
  -- Forms that compare as equal have the same exponent and the same mantissa.
  have same : UnpackedFloat.compare u v = some .eq := by
    rw [first.compare_eq second, compare_eq_iff_eq.mpr equal]
  cases first with
  | zero s =>
    cases second with
    | zero t => cases s <;> cases t <;> simp_all
    | finite t positive target => cases t <;> cases same
  | finite s positive target =>
    cases second with
    | zero t => cases s <;> cases same
    | finite t positive' target' =>
      cases s with
      | negative => exact absurd rfl one
      | positive =>
        cases t with
        | negative => exact absurd rfl two
        | positive =>
          simp only [UnpackedFloat.compare, Option.some.injEq, Ordering.then_eq_eq,
            compare_eq_iff_eq] at same
          obtain ⟨rfl, rfl⟩ := same
          rfl

/-- Packing gives back the double that was unpacked. -/
theorem ofModel_pack_unpack (x : Float) : Float.ofModel (.pack x.toModel.unpack) = x := by
  obtain ⟨⟨bits, valid⟩⟩ := x
  -- A float holds valid bits, and packing gives valid bits back.
  have kept : UnpackedFloat.pack .binary64 (unpack .binary64 bits.toBitVec) = bits.toBitVec :=
    pack_unpack_of_valid valid
  simp only [Float.Model.pack, Float.Model.unpack, kept]

/-- Doubles without the negative sign that are the same number are the same. -/
theorem eq_of_readsDouble (first : ReadsDouble x q) (second : ReadsDouble y q)
    (one : Unsigned x) (two : Unsigned y) : x = y := by
  -- A number without a sign has one form, and the form fixes the bits.
  have forms : x.toModel.unpack = y.toModel.unpack := first.eq_of_unsigned second rfl one two
  rw [← ofModel_pack_unpack x, ← ofModel_pack_unpack y, forms]

end Raster.Binary
