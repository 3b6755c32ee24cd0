import Raster.Bytes.Descriptor
import Raster.Layout.Word

/-!
Judging byte buffers in words: whole samples are counted by a division, and the layout is judged
over them in checked words.  Main statement: `checkedLengthWord_eq_checkedLength`, for a buffer
whose length is a word this is the judgement in whole numbers.
-/

namespace Raster

/-- A sample of every type takes a byte at least. -/
theorem SampleType.size_pos (type : SampleType) : 0 < type.size := by
  cases type <;> decide

namespace Descriptor

/-- The bytes of the whole samples in a buffer, judged without leaving the words. -/
def checkedLengthWord (descriptor : Descriptor) (depth : Depth) (channels byteLength : Nat) :
    Except Refusal Nat := do
  let samples := byteLength / depth.size
  descriptor.layout.checkWord channels samples
  -- The product is no longer than the buffer, so it needs no check.
  return samples * depth.size

/-- On a buffer whose length is a word, words judge as whole numbers do. -/
theorem checkedLengthWord_eq_checkedLength (descriptor : Descriptor) (depth : Depth)
    (channels : Nat) {byteLength : Nat} (word : byteLength < wordLimit) :
    descriptor.checkedLengthWord depth channels byteLength =
      descriptor.checkedLength depth channels byteLength := by
  -- There are no more samples than bytes, so their number is a word as well.
  have samples : byteLength / depth.size < wordLimit :=
    Nat.lt_of_le_of_lt (Nat.div_le_self _ _) word
  unfold checkedLengthWord checkedLength
  simp only [Layout.checkWord_eq_check samples]

end Descriptor

end Raster
