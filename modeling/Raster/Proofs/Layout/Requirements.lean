import Mathlib.Order.Interval.Set.Basic
import Raster.Layout.Word

/-!
What a buffer has to meet to hold an image.  Main statement: `checkWord_exact`, judging in words
accepts exactly the layouts that meet every requirement in whole numbers, refuses the others for the
first one they violate, and leaves accepted rows inside the buffer and apart from each other.
-/

namespace Raster.Layout

/-- A requirement, and the refusal of what violates it. -/
structure Requirement where
  met : Prop
  refusal : Refusal

/-- The requirements of a layout on a buffer, in the order in which they are judged. -/
def requirements (layout : Layout) (channels length : Nat) : List Requirement :=
  [⟨0 < layout.height, .emptyImage layout.extent⟩,
    ⟨0 < layout.width, .emptyImage layout.extent⟩,
    -- A row whose length is no word is reported as an empty image, too.
    ⟨layout.rowLength channels < wordLimit, .emptyImage layout.extent⟩,
    ⟨layout.rowLength channels ≤ layout.stride,
      .shortStride layout.stride (layout.rowLength channels)⟩,
    ⟨0 < length, .noBuffer⟩,
    ⟨layout.required channels ≤ length,
      .shortBuffer (saturate (layout.required channels)) length⟩]

/-- A refusal is that of a violated requirement, and all the requirements before it are met. -/
def FirstViolated (requirements : List Requirement) (refusal : Refusal) : Prop :=
  ∃ before violated after, requirements = before ++ violated :: after ∧
    (∀ earlier ∈ before, earlier.met) ∧ ¬violated.met ∧ violated.refusal = refusal

variable {layout : Layout} {channels length : Nat} {refusal : Refusal}

/-- Where nothing is required, nothing is violated. -/
theorem not_firstViolated_nil : ¬FirstViolated [] refusal := by
  rintro ⟨before, violated, after, whole, -⟩
  -- No list of requirements around a violated one is empty.
  cases before <;> contradiction

/-- Either the first requirement is the violated one, or it is met and the rest is judged. -/
theorem firstViolated_cons {requirement : Requirement} {rest : List Requirement} :
    FirstViolated (requirement :: rest) refusal ↔
      (¬requirement.met ∧ requirement.refusal = refusal) ∨
        (requirement.met ∧ FirstViolated rest refusal) := by
  constructor
  · rintro ⟨before, violated, after, whole, met, unmet, same⟩
    cases before with
    -- Nothing stands before the violated requirement, so it is the first one.
    | nil =>
      obtain ⟨rfl, -⟩ := List.cons.inj whole
      exact .inl ⟨unmet, same⟩
    -- Otherwise the first one is among those that are met.
    | cons first before =>
      obtain ⟨rfl, tail⟩ := List.cons.inj whole
      exact .inr ⟨met _ List.mem_cons_self, before, violated, after, tail,
        fun earlier member => met earlier (List.mem_cons_of_mem _ member), unmet, same⟩
  · rintro (⟨unmet, same⟩ | ⟨first, before, violated, after, whole, met, unmet, same⟩)
    · exact ⟨[], requirement, rest, rfl, nofun, unmet, same⟩
    · -- The first one joins those that stand before the violated requirement.
      refine ⟨requirement :: before, violated, after, by rw [whole]; rfl, ?_, unmet, same⟩
      intro earlier member
      rcases List.mem_cons.mp member with rfl | later
      · exact first
      · exact met earlier later

/-- A layout is refused for the first requirement that the buffer violates. -/
theorem check_eq_error_iff :
    layout.check channels length = .error refusal ↔
      FirstViolated (layout.requirements channels length) refusal := by
  -- Each branch refuses what all the branches before it let pass.
  unfold check requirements
  simp only [firstViolated_cons, not_firstViolated_nil, and_false, or_false]
  split_ifs <;> grind

/-- The rows of an image do not share a place in the buffer. -/
theorem Fits.rows_disjoint (fits : layout.Fits channels length) {y z : Nat} (apart : y ≠ z) :
    Set.Ico (layout.rowStart y) (layout.rowStart y + layout.rowLength channels) ∩
      Set.Ico (layout.rowStart z) (layout.rowStart z + layout.rowLength channels) = ∅ := by
  refine Set.eq_empty_of_forall_notMem fun place ⟨first, second⟩ => apart ?_
  -- A place in both rows would be a sample of each, and samples have places of their own.
  obtain ⟨j, rfl⟩ := Nat.exists_eq_add_of_le first.1
  obtain ⟨k, same⟩ := Nat.exists_eq_add_of_le second.1
  exact (fits.place_inj (by have := first.2; omega) (by have := second.2; omega) same).1

/-- For all words, judging in words is the judgement in whole numbers.  A layout is accepted exactly
when it meets every requirement, else refused for the first that it violates; and the rows of an
accepted layout lie inside the buffer and apart from each other. -/
theorem checkWord_exact (height width channels stride length : UInt64) :
    let layout : Layout := ⟨height.toNat, width.toNat, stride.toNat⟩
    let row (y : Nat) :=
      Set.Ico (y * stride.toNat) (y * stride.toNat + width.toNat * channels.toNat)
    layout.checkWord channels.toNat length.toNat = layout.check channels.toNat length.toNat ∧
    (layout.checkWord channels.toNat length.toNat = .ok () ↔
      1 ≤ height.toNat ∧ 1 ≤ width.toNat ∧ width.toNat * channels.toNat < wordLimit ∧
        width.toNat * channels.toNat ≤ stride.toNat ∧ 1 ≤ length.toNat ∧
        (height.toNat - 1) * stride.toNat + width.toNat * channels.toNat ≤ length.toNat) ∧
    (∀ refusal, layout.checkWord channels.toNat length.toNat = .error refusal ↔
      FirstViolated (layout.requirements channels.toNat length.toNat) refusal) ∧
    (layout.checkWord channels.toNat length.toNat = .ok () →
      (∀ y, y < height.toNat → row y ⊆ Set.Ico 0 length.toNat) ∧
        ∀ y z, y < height.toNat → z < height.toNat → y ≠ z → row y ∩ row z = ∅) := by
  intro layout row
  -- The length of a buffer is a word, so whole numbers may judge in the place of words.
  have same : layout.checkWord channels.toNat length.toNat =
      layout.check channels.toNat length.toNat := checkWord_eq_check length.toNat_lt
  refine ⟨same, ?_, fun refusal => same ▸ check_eq_error_iff, fun accepted => ?_⟩
  · rw [same, check_eq_ok_iff]
    exact ⟨fun ⟨tall, wide, word, held, filled, long⟩ => ⟨tall, wide, word, held, filled, long⟩,
      fun ⟨tall, wide, word, held, filled, long⟩ => ⟨tall, wide, word, held, filled, long⟩⟩
  · have fits := check_eq_ok_iff.mp (same ▸ accepted)
    exact ⟨fun y inImage place held => ⟨Nat.zero_le _, held.2.trans_le (fits.row_le inImage)⟩,
      fun y z _ _ apart => fits.rows_disjoint apart⟩

/-- Rows that would wrap around to the start of the buffer are not taken for a short image. -/
example : (⟨2 ^ 63 + 1, 1, 2⟩ : Layout).checkWord 1 5 = .error (.shortBuffer (2 ^ 64 - 1) 5) := by
  decide

end Raster.Layout
