import Raster.Proofs.Kernel.Transform

/-!
Writing by chunks: the buffer of a target is cut into chunks of its stride, and each row of an image
goes over the first samples of one chunk.  Main statement: `View.store?_eq_overChunks?`, this is how
an image is stored, with no row left over for want of a chunk and no chunk too short for its row.
-/

namespace Raster

section

variable {α : Type}

/-- Values written over the first `count` samples of a chunk, a fault when it has fewer. -/
def overChunk? (count : Nat) (chunk values : List α) : Option (List α) :=
  -- Samples beyond the given values keep their own.
  if count ≤ chunk.length then some (values.take count ++ chunk.drop (min count values.length))
  else none

/-- Rows of values written over the first samples of the chunks of `stride` samples of a buffer. -/
def overChunks? (stride count : Nat) : List (List α) → List α → Option (List α)
  | [], rest => some rest
  -- Without a chunk for it, a row is not written at all.
  | _ :: _, [] => some []
  | values :: rows, sample :: rest => do
    let buffer := sample :: rest
    let written ← overChunk? count (buffer.take stride) values
    let others ← overChunks? stride count rows (buffer.drop stride)
    some (written ++ others)

variable {stride count : Nat} {values buffer : List α}

/-- A row over a chunk that has room for it: the row comes first, then the rest of the chunk. -/
theorem exists_overChunk? (short : count ≤ stride) (full : values.length = count)
    (room : count ≤ buffer.length) :
    ∃ written, overChunk? count (buffer.take stride) values = some written ∧
      written.length = min stride buffer.length ∧
      (∀ k, k < count → written[k]? = values[k]?) ∧
      ∀ i, count ≤ i → i < min stride buffer.length → written[i]? = buffer[i]? := by
  -- A chunk is as long as the stride, or what is left of the buffer.
  have held : count ≤ (buffer.take stride).length := by
    rw [List.length_take]
    omega
  refine ⟨values ++ (buffer.take stride).drop count, ?_, ?_, ?_, ?_⟩
  · rw [overChunk?, if_pos held, full, Nat.min_self, List.take_of_length_le (by omega)]
  · simp only [List.length_append, List.length_drop, List.length_take, full]
    omega
  · intro k inRow
    rw [List.getElem?_append_left (by omega)]
  · intro i behind inChunk
    rw [List.getElem?_append_right (by omega), full, List.getElem?_drop,
      show count + (i - count) = i by omega, List.getElem?_take, if_pos (by omega)]

/-- Without rows the buffer stays as it is. -/
theorem overChunks?_nil (stride count : Nat) (buffer : List α) :
    overChunks? stride count [] buffer = some buffer := by
  cases buffer <;> rfl

/-- The first row goes over the first chunk of a buffer that has samples, and the others over the
chunks after it. -/
theorem overChunks?_cons (rows : List (List α)) (held : 0 < buffer.length) :
    overChunks? stride count (values :: rows) buffer =
      (overChunk? count (buffer.take stride) values).bind fun written =>
        (overChunks? stride count rows (buffer.drop stride)).bind fun others =>
          some (written ++ others) := by
  -- There is another chunk as long as samples are left.
  cases buffer with
  | nil => simp at held
  | cons sample rest => rfl

/-- Rows over the chunks of a buffer that has room for all of them: each row lies at the start of
its own chunk, and all else is as it was. -/
theorem exists_overChunks? (positive : 0 < count) (short : count ≤ stride) {rows : List (List α)}
    (full : ∀ values ∈ rows, values.length = count)
    (room : ∀ y, y < rows.length → y * stride + count ≤ buffer.length) :
    ∃ written, overChunks? stride count rows buffer = some written ∧
      (∀ y k, y < rows.length → k < count →
        written[y * stride + k]? = rows[y]?.bind (·[k]?)) ∧
      ∀ i, (∀ y k, y < rows.length → k < count → i ≠ y * stride + k) →
        written[i]? = buffer[i]? := by
  induction rows generalizing buffer with
  | nil => exact ⟨buffer, overChunks?_nil stride count buffer, by simp, fun _ _ => rfl⟩
  | cons values rows ih =>
    have first : count ≤ buffer.length := by
      simpa using room 0 (by simp)
    obtain ⟨chunk, placed, size, row, kept⟩ :=
      exists_overChunk? short (full values (by simp)) first
    -- The later rows find their room behind the first chunk.
    have further : ∀ y, y < rows.length → y * stride + stride + count ≤ buffer.length := by
      intro y inRows
      rw [← Nat.succ_mul]
      exact room (y + 1) (by simpa using inRows)
    have behind : ∀ y, y < rows.length → y * stride + count ≤ (buffer.drop stride).length := by
      intro y inRows
      have := further y inRows
      rw [List.length_drop]
      omega
    obtain ⟨others, run, entries, rest⟩ :=
      ih (fun later member => full later (by simp [member])) behind
    refine ⟨chunk ++ others, ?_, ?_, ?_⟩
    · rw [overChunks?_cons rows (by omega), placed, run, Option.bind_some, Option.bind_some]
    · intro y k inRows inRow
      cases y with
      | zero =>
        rw [Nat.zero_mul, Nat.zero_add, List.getElem?_append_left (by omega), row k inRow]
        rfl
      | succ y =>
        -- A later row lies a whole stride behind its place in the rest of the buffer.
        have inRows : y < rows.length := by simpa using inRows
        have := further y inRows
        rw [Nat.succ_mul, List.getElem?_append_right (by omega), size, Nat.min_eq_left (by omega),
          show y * stride + stride + k - stride = y * stride + k by omega,
          entries y k inRows inRow, List.getElem?_cons_succ]
    · intro i outside
      have notFirst : count ≤ i := Nat.le_of_not_lt fun inFirst =>
        outside 0 i (by simp) inFirst (by simp)
      by_cases inChunk : i < min stride buffer.length
      · rw [List.getElem?_append_left (by omega), kept i notFirst inChunk]
      · rw [List.getElem?_append_right (by omega), size, rest, List.getElem?_drop]
        · rcases Nat.le_total stride buffer.length with whole | part
          · rw [Nat.min_eq_left whole, Nat.add_sub_of_le (by omega)]
          -- A first chunk that is not whole ends with the buffer.
          · rw [List.getElem?_eq_none (by omega), List.getElem?_eq_none (by omega)]
        · intro y k inRows inRow same
          have := further y inRows
          exact outside (y + 1) k (by simpa using inRows) inRow (by rw [Nat.succ_mul]; omega)

end

namespace View

variable {α : Type} {channels : Nat}

/-- Storing an image writes its rows over the chunks of the buffer. -/
theorem store?_eq_overChunks? (view : View α channels) (image : Grid α channels)
    (height : image.height = view.layout.height) (width : image.width = view.layout.width)
    (positive : 0 < channels) :
    (view.store? image).map (·.data.toList) =
      (gather? image.row? (List.range view.layout.height)).bind fun rows =>
        overChunks? view.layout.stride (view.layout.rowLength channels) rows view.data.toList := by
  -- Every row of the image can be read, and has the length of a row of the view.
  have reads : ∀ y ∈ List.range view.layout.height, ∃ values, image.row? y = some values := by
    intro y inRange
    rw [List.mem_range] at inRange
    obtain ⟨values, read, -⟩ := image.exists_row? (y := y) (by omega)
    exact ⟨values, read⟩
  obtain ⟨rows, gathered⟩ := exists_gather? reads
  have entries := gather?_eq_some_iff.mp gathered
  have count : rows.length = view.layout.height := by
    simpa using length_of_gather? gathered
  have row : ∀ y, y < view.layout.height → image.row? y = rows[y]? := by
    intro y inImage
    have entry := congrArg (·[y]?) entries
    simpa [inImage, count] using entry
  have length : ∀ values ∈ rows, values.length = view.layout.rowLength channels := by
    intro values member
    obtain ⟨y, inRows, same⟩ := List.mem_iff_getElem.mp member
    obtain ⟨again, read, length, -⟩ := image.exists_row? (y := y) (by omega)
    rw [row y (by omega), List.getElem?_eq_getElem inRows, same, Option.some.injEq] at read
    rw [read, length, width]
    rfl
  -- Rows have places, and each of them ends inside the buffer.
  have rowPos : 0 < view.layout.rowLength channels := Nat.mul_pos view.fits.width_pos positive
  have room : ∀ y, y < rows.length →
      y * view.layout.stride + view.layout.rowLength channels ≤ view.data.toList.length := by
    intro y inRows
    rw [Array.length_toList]
    exact view.fits.row_le (by omega)
  obtain ⟨chunked, run, places, others⟩ :=
    exists_overChunks? rowPos view.fits.rowLength_le length room
  obtain ⟨stored, finished, -, -, samples, rest⟩ :=
    view.exists_storeRows? image height width (Nat.le_refl _)
  have same : view.store? image = some stored := finished
  rw [same, gathered, Option.bind_some, run, Option.map_some, Option.some.injEq]
  -- A place holds the same sample of a row on both sides, or what it held before.
  apply List.ext_getElem?
  intro i
  rw [Array.getElem?_toList]
  by_cases visible : view.layout.Holds channels i
  · obtain ⟨y, k, inImage, inRow, rfl⟩ := visible
    obtain ⟨values, read, -, entry⟩ := image.exists_row? (y := y) (by omega)
    rw [samples y k inImage inRow, Layout.rowStart, places y k (by omega) inRow, ← row y inImage,
      read, Option.bind_some, entry k (by rw [width]; exact inRow)]
  · rw [others i, Array.getElem?_toList, rest i]
    · intro y k inImage inRow at_place
      exact visible ⟨y, k, inImage, inRow, at_place⟩
    · intro y k inRows inRow at_place
      exact visible ⟨y, k, by omega, inRow, at_place⟩

end View

end Raster
