import Mathlib.Algebra.Group.Int.Defs
import Mathlib.Algebra.Group.Nat.Defs
import Mathlib.Data.Int.Init
import Raster.Border.Word

/-!
Folding as the only way to extend an axis by its mirror images.  Main statement: `folding_laws`, on
signed words a border places a coordinate on the nearest sample, or repeats and mirrors the axis as
nothing else does, and a table lists the folds of its coordinates exactly when its count is a signed
word.
-/

namespace Raster

namespace Border

/-- A placing of signed words on an axis that leaves its samples where they are. -/
structure Places (length : Nat) (place : Int → Nat) : Prop where
  lands : ∀ c, Word.isSigned c → place c < length
  keeps : ∀ i : Nat, i < length → place i = i

/-- A placing that repeats itself after a period, and does not tell a coordinate from its image in a
mirror, which takes zero to `mirror`. -/
structure Mirrors (length : Nat) (period mirror : Int) (place : Int → Nat) : Prop
    extends Places length place where
  -- Both laws are asked for only where the coordinates are words.
  repeats : ∀ c, Word.isSigned c → Word.isSigned (c + period) → place (c + period) = place c
  mirrors : ∀ c, Word.isSigned c → Word.isSigned (mirror - c) → place (mirror - c) = place c

/-- Where a coordinate lies on the axis or, past its end, on the mirror image that follows it in the
period. -/
def mirrored (length : Nat) (period mirror c : Int) : Int :=
  let offset := c % period
  if offset < length then offset else period + mirror - offset

/-- An axis is followed by its mirror image, with both ends repeated or neither, and a period of
both is a signed word. -/
structure Mirrorable (length : Nat) (period mirror : Int) : Prop where
  -- The mirror stands on the first sample or half a sample before it.
  ends : mirror = -1 ∨ mirror = 0
  closes : period = 2 * length - 2 - 2 * mirror
  positive : 0 < period
  word : period < Word.signedLimit

section Mirrored

variable {length : Nat} {period mirror : Int} {place : Int → Nat}

/-- The mirrored axis is as long as its period. -/
theorem Mirrorable.length_le (axis : Mirrorable length period mirror) : length ≤ period := by
  -- A period holds the axis and, but for its ends, its image.
  have := axis.ends
  have := axis.closes
  have := axis.positive
  omega

/-- The axis and its image hold samples of the axis alone. -/
theorem mirrored_bounds (axis : Mirrorable length period mirror) (c : Int) :
    0 ≤ mirrored length period mirror c ∧ mirrored length period mirror c < length := by
  -- The first half of a period is the axis itself, and the second half counts backwards.
  have ends := axis.ends
  have closes := axis.closes
  have low := Int.emod_nonneg c (Int.ne_of_gt axis.positive)
  have high := Int.emod_lt_of_pos c axis.positive
  unfold mirrored
  dsimp only
  split <;> omega

/-- A sample of the axis lies where it is. -/
theorem mirrored_of_inside (axis : Mirrorable length period mirror) {c : Int} (low : 0 ≤ c)
    (high : c < length) : mirrored length period mirror c = c := by
  -- A sample lies in the first half of the first period.
  have long := axis.length_le
  rw [mirrored, Int.emod_eq_of_lt low (by omega)]
  exact if_pos high

/-- A coordinate and its image in the mirror lie on one sample. -/
theorem mirrored_sub (axis : Mirrorable length period mirror) (c : Int) :
    mirrored length period mirror (mirror - c) = mirrored length period mirror c := by
  have ends := axis.ends
  have closes := axis.closes
  have low := Int.emod_nonneg c (Int.ne_of_gt axis.positive)
  have high := Int.emod_lt_of_pos c axis.positive
  unfold mirrored
  rw [← Int.sub_emod_emod mirror c period]
  generalize c % period = offset at low high ⊢
  -- The image of an offset lies a period before the offset that mirrors it, or both are zero.
  by_cases fixed : mirror - offset = 0
  · have zero : offset = 0 := by omega
    rw [fixed, zero, Int.zero_emod]
  · have wrapped : (mirror - offset) % period = period + mirror - offset := by
      rw [← Int.add_emod_right, Int.emod_eq_of_lt (by omega) (by omega)]
      omega
    rw [wrapped]
    dsimp only
    split <;> split <;> omega

/-- Coordinates whole periods apart are placed on one sample, whichever side they lie on. -/
theorem Mirrors.place_add_mul (mirrors : Mirrors length period mirror place)
    (axis : Mirrorable length period mirror) {r : Int} (low : 0 ≤ r) (high : r < period)
    (periods : Int) (signed : Word.isSigned (r + periods * period)) :
    place (r + periods * period) = place r := by
  have word := axis.word
  have positive := axis.positive
  -- A step back towards the first period stays among the signed words.
  induction periods using Int.induction_on with
  | zero => rw [Int.zero_mul, Int.add_zero]
  | succ n ih =>
    have whole : 0 ≤ (n : Int) * period := Int.mul_nonneg (by omega) (by omega)
    rw [Int.add_mul, Int.one_mul, ← Int.add_assoc] at signed ⊢
    rw [Word.isSigned_iff] at signed
    have nearer : Word.isSigned (r + n * period) := Word.isSigned_iff.mpr (by omega)
    rw [mirrors.repeats _ nearer (Word.isSigned_iff.mpr signed), ih nearer]
  | pred n ih =>
    have whole : 0 ≤ (n : Int) * period := Int.mul_nonneg (by omega) (by omega)
    rw [Int.sub_mul, Int.one_mul, ← Int.add_sub_assoc] at signed ⊢
    have next : r + -n * period - period + period = r + -n * period := Int.sub_add_cancel _ _
    have nearer : Word.isSigned (r + -n * period) := by
      rw [Word.isSigned_iff, Int.neg_mul] at signed ⊢
      omega
    rw [← mirrors.repeats _ signed (by rw [next]; exact nearer), next, ih nearer]

/-- Coordinates with one remainder by the period are placed on one sample. -/
theorem Mirrors.place_emod (mirrors : Mirrors length period mirror place)
    (axis : Mirrorable length period mirror) {c : Int} (signed : Word.isSigned c) :
    place c = place (c % period) := by
  -- A coordinate is a place in the first period, some periods away.
  have split : c % period + c / period * period = c := by
    rw [Int.mul_comm, Int.emod_add_mul_ediv]
  have low := Int.emod_nonneg c (Int.ne_of_gt axis.positive)
  have same := mirrors.place_add_mul axis low (Int.emod_lt_of_pos c axis.positive) (c / period)
  rw [split] at same
  exact same signed

/-- Whatever mirrors the axis places a coordinate where the period of axis and image has it. -/
theorem Mirrors.place_eq (mirrors : Mirrors length period mirror place)
    (axis : Mirrorable length period mirror) {c : Int} (signed : Word.isSigned c) :
    (place c : Int) = mirrored length period mirror c := by
  have ends := axis.ends
  have closes := axis.closes
  have word := axis.word
  have low := Int.emod_nonneg c (Int.ne_of_gt axis.positive)
  have high := Int.emod_lt_of_pos c axis.positive
  have onAxis {i : Int} (after : 0 ≤ i) (before : i < length) : (place i : Int) = i := by
    obtain ⟨i, rfl⟩ := Int.eq_ofNat_of_zero_le after
    exact congrArg Nat.cast (mirrors.keeps i (by omega))
  rw [mirrors.place_emod axis signed, mirrored]
  generalize c % period = offset at low high ⊢
  split
  · exact onAxis low (by assumption)
  · -- The image lies before the axis, and one period later on it.
    have first := mirrors.mirrors offset (Word.isSigned_iff.mpr (by omega))
      (Word.isSigned_iff.mpr (by omega))
    have second := mirrors.repeats (mirror - offset) (Word.isSigned_iff.mpr (by omega))
      (Word.isSigned_iff.mpr (by omega))
    have image : mirror - offset + period = period + mirror - offset := by omega
    rw [← first, ← second, image]
    exact onAxis (by omega) (by omega)

/-- Placing coordinates where the period of axis and image has them mirrors the axis. -/
theorem mirrors_of_eq (axis : Mirrorable length period mirror)
    (same : ∀ c, Word.isSigned c → (place c : Int) = mirrored length period mirror c) :
    Mirrors length period mirror place where
  -- Landing and keeping hold of the mirrored axis, and so of any placing that equals it.
  lands c signed := by
    have bounds := mirrored_bounds axis c
    have := same c signed
    omega
  keeps i inside := by
    have long := axis.length_le
    have word := axis.word
    have kept := same i (Word.isSigned_iff.mpr (by omega))
    rw [mirrored_of_inside axis (by omega) (by omega)] at kept
    exact Int.ofNat.inj kept
  -- Periods vanish in the remainder.
  repeats c signed next := by
    have kept := same (c + period) next
    rw [mirrored, Int.add_emod_right, ← mirrored, ← same c signed] at kept
    exact Int.ofNat.inj kept
  -- The image of a coordinate has the remainder of its mirror.
  mirrors c signed image := by
    have kept := same (mirror - c) image
    rw [mirrored_sub axis, ← same c signed] at kept
    exact Int.ofNat.inj kept

/-- Folding onto a mirrored axis is the only way to mirror it. -/
theorem mirrors_iff (axis : Mirrorable length period mirror) {fold : Int → Nat}
    (folds : ∀ c, (fold c : Int) = mirrored length period mirror c) :
    Mirrors length period mirror place ↔ ∀ c, Word.isSigned c → place c = fold c := by
  constructor
  -- The laws bring a coordinate into the first half period, where a placing keeps it.
  · intro mirrors c signed
    exact Int.ofNat.inj ((mirrors.place_eq axis signed).trans (folds c).symm)
  -- The formula has the laws, and so has what equals it.
  · intro same
    exact mirrors_of_eq axis fun c signed => by rw [same c signed, folds c]

end Mirrored

section Laws

variable {length : Nat}

/-- The axis of a border that repeats its ends. -/
theorem mirrorable_reflect (positive : 1 ≤ length) (small : length < 2 ^ 62) :
    Mirrorable length (2 * length) (-1) := by
  -- Periods of these axes are words with a sign.
  have limit : Word.signedLimit = 2 ^ 63 := rfl
  exact ⟨.inl rfl, by omega, by omega, by omega⟩

/-- The axis of a border that does not repeat its ends. -/
theorem mirrorable_reflect101 (several : 2 ≤ length) (small : length < 2 ^ 62) :
    Mirrorable length (2 * length - 2) 0 := by
  have limit : Word.signedLimit = 2 ^ 63 := rfl
  exact ⟨.inr rfl, by omega, by omega, by omega⟩

/-- The fold of a coordinate is its place. -/
theorem natCast_fold (border : Border) (positive : 1 ≤ length) (c : Int) :
    (border.fold length c : Int) = border.place length c := by
  exact Int.toNat_of_nonneg (border.place_bounds (by omega) c).1

/-- A border that repeats the ends folds onto the axis and its image. -/
theorem fold_reflect (positive : 1 ≤ length) (small : length < 2 ^ 62) (c : Int) :
    (Border.reflect.fold length c : Int) = mirrored length (2 * length) (-1) c := by
  -- On the axis nothing is folded, and off it both sides take the same remainder.
  rw [natCast_fold _ positive, place]
  split
  · rw [mirrored_of_inside (mirrorable_reflect positive small)] <;> omega
  · rw [mirrored]
    dsimp only
    split <;> omega

/-- A border that does not repeat the ends folds onto the axis and its image. -/
theorem fold_reflect101 {border : Border} (named : border = .reflect101 ∨ border = .standard)
    (several : 2 ≤ length) (small : length < 2 ^ 62) (c : Int) :
    (border.fold length c : Int) = mirrored length (2 * length - 2) 0 c := by
  -- The default policy folds by the same rule.
  have same : border.fold length c = Border.reflect101.fold length c := by
    rcases named with rfl | rfl <;> rfl
  rw [same, natCast_fold _ (by omega), place]
  split
  · rw [mirrored_of_inside (mirrorable_reflect101 several small)] <;> omega
  · rw [mirrored, if_neg (by omega)]
    dsimp only
    split <;> omega

/-- A border that extends the edge samples folds onto the nearest sample; no other is as near. -/
theorem natAbs_sub_fold_replicate_lt (positive : 1 ≤ length) (c : Int) {i : Nat}
    (inside : i < length) (other : i ≠ Border.replicate.fold length c) :
    (c - Border.replicate.fold length c).natAbs < (c - i).natAbs := by
  -- Off the axis the edge on that side is nearest, and the others lie behind it.
  have onto := natCast_fold .replicate positive c
  rw [place] at onto
  split at onto
  · omega
  · omega

end Laws

section Tables

variable {border : Border} {length : Nat}

/-- The entries are the folds of `count` coordinates from `start`, one entry for each. -/
def Lists (border : Border) (length : Nat) (start : Int) (count : Nat) (entries : List Nat) :
    Prop :=
  entries.length = count ∧
    ∀ i : Nat, i < count → entries[i]? = some (border.fold length (start + i))

/-- A table lists the folds of its coordinates. -/
theorem lists_table (border : Border) (length : Nat) (start : Int) (count : Nat) :
    border.Lists length start count (border.table start count length) := by
  -- Entry by entry the table folds the next coordinate.
  refine ⟨by rw [table, List.length_map, List.length_range], fun i inside => ?_⟩
  rw [table, List.getElem?_map, List.getElem?_range inside, Option.map_some]

/-- A table goes on with the table of the coordinates behind it. -/
theorem table_add (border : Border) (start : Int) (first second length : Nat) :
    border.table start (first + second) length =
      border.table start first length ++ border.table (start + first) second length := by
  unfold table
  -- The coordinates of both parts follow one another.
  rw [List.range_add, List.map_append, List.map_map]
  congr 1
  refine List.map_congr_left fun offset _ => ?_
  rw [Function.comp_apply, Int.natCast_add, Int.add_assoc]

end Tables

/-- On every axis of fewer than 2^62 samples folding in words never faults; it lands on the axis and
keeps its samples; it takes the nearest sample where the edges extend; and the mirroring borders are
the only placings that repeat with their period and mirror the axis at its start.  A table whose
coordinates are signed words lists their folds, and is two tables joined, exactly while its count is
a signed word; from there on it is empty. -/
theorem folding_laws (border : Border) (length : Nat) (positive : 1 ≤ length)
    (small : length < 2 ^ 62) :
    (∀ c, Word.isSigned c → border.foldWord? length c = some (border.fold length c)) ∧
    Places length (border.fold length) ∧
    (border = .replicate → ∀ c, Word.isSigned c → ∀ i, i < length → i ≠ border.fold length c →
      (c - border.fold length c).natAbs < (c - i).natAbs) ∧
    (border = .reflect → ∀ place, Mirrors length (2 * length) (-1) place ↔
      ∀ c, Word.isSigned c → place c = border.fold length c) ∧
    (border = .reflect101 ∨ border = .standard →
      (length = 1 → ∀ c, Word.isSigned c → border.fold length c = 0) ∧
      (2 ≤ length → ∀ place, Mirrors length (2 * length - 2) 0 place ↔
        ∀ c, Word.isSigned c → place c = border.fold length c)) ∧
    ∀ (start : Int) (count : Nat), Word.isSigned start → count < 2 ^ 64 →
      Word.isSigned (start + count) →
      ∃ entries, border.tableWord? start count length = some entries ∧
        (border.Lists length start count entries ↔ count < 2 ^ 63) ∧
        (2 ^ 63 ≤ count → entries = []) ∧
        ∀ first second, first + second = count → count < 2 ^ 63 →
          ∃ front back, border.tableWord? start first length = some front ∧
            border.tableWord? (start + first) second length = some back ∧
            entries = front ++ back := by
  have limit : Word.signedLimit = 2 ^ 63 := rfl
  have limits : wordLimit = 2 ^ 64 := rfl
  have fits : 2 * (length : Int) < Word.signedLimit := by omega
  refine ⟨fun c _ => border.foldWord?_eq_fold positive fits c,
    ⟨fun c _ => border.fold_lt positive c, fun i inside => border.fold_of_lt inside⟩,
    ?_, ?_, fun named => ⟨?_, ?_⟩, ?_⟩
  · rintro rfl c - i inside other
    exact natAbs_sub_fold_replicate_lt positive c inside other
  · rintro rfl place
    exact mirrors_iff (mirrorable_reflect positive small) (fold_reflect positive small)
  · rintro rfl c -
    have onto := border.fold_lt positive c
    omega
  · intro several place
    exact mirrors_iff (mirrorable_reflect101 several small) (fold_reflect101 named several small)
  · intro start count signed word next
    rw [Word.isSigned_iff] at signed next
    have table {begin : Int} {part : Nat} (short : part < 2 ^ 63) (low : start ≤ begin)
        (high : begin + part ≤ start + count) :
        border.tableWord? begin part length = some (border.table begin part length) :=
      border.tableWord?_eq_table positive fits (by omega)
        fun offset inside => Word.isSigned_iff.mpr (by omega)
    by_cases few : count < 2 ^ 63
    · refine ⟨_, table few (by omega) (by omega),
        ⟨fun _ => few, fun _ => border.lists_table length start count⟩, fun many => by omega, ?_⟩
      rintro first second rfl -
      exact ⟨_, _, table (by omega) (by omega) (by omega), table (by omega) (by omega) (by omega),
        border.table_add start first second length⟩
    · -- The count reads as a negative number, and no coordinate is folded.
      refine ⟨[], border.tableWord?_of_signedLimit_le (by omega) (by omega) start length,
        ⟨fun ⟨count, _⟩ => ?_, fun less => by omega⟩, fun _ => rfl, fun _ _ _ less => by omega⟩
      rw [List.length_nil] at count
      omega

/-- Four samples without repeated ends: the fold mirrors them, and a table of seven entries reaches
over both ends. -/
theorem folding_laws_fourSamples :
    1 ≤ 4 ∧ 4 < 2 ^ 62 ∧ Mirrors 4 (2 * (4 : Nat) - 2) 0 (Border.reflect101.fold 4) ∧
      ∃ entries, Border.reflect101.tableWord? (-2) 7 4 = some entries ∧
        Border.reflect101.Lists 4 (-2) 7 entries := by
  -- Two samples before the axis and one behind it are taken from inside.
  obtain ⟨-, -, -, -, mirroring, tables⟩ := folding_laws .reflect101 4 (by decide) (by decide)
  obtain ⟨entries, built, lists, -⟩ := tables (-2) 7 (by decide) (by decide) (by decide)
  exact ⟨by decide, by decide,
    ((mirroring (.inl rfl)).2 (by decide) _).mpr fun _ _ => rfl,
    entries, built, lists.mpr (by decide)⟩

/-- A table of all the negative signed words, whose count is no signed word, is empty. -/
theorem tableWord?_negativeWords :
    Word.isSigned (-2 ^ 63) ∧ Word.isSigned (-2 ^ 63 + (2 ^ 63 : Nat)) ∧
      Border.replicate.tableWord? (-2 ^ 63) (2 ^ 63) 1 = some [] ∧
      ¬Border.replicate.Lists 1 (-2 ^ 63) (2 ^ 63) [] := by
  -- The count is read as a negative number, so the range of coordinates is empty.
  refine ⟨by decide, by decide, by decide, fun lists => ?_⟩
  have empty : 0 = 2 ^ 63 := lists.1
  contradiction

end Border

end Raster
