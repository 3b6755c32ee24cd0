import Raster.Proofs.Resize.Written

/-!
Decimation tables cut into spans.  Main statement: `spans?_partition`, the spans of a table whose
destinations ascend partition it, the table of an axis is such a table, and where overlaps are
weighted a row of the target takes in the entries of its own span, each of them once.
-/

namespace Raster.Area

/-- The positions of the entries of a span, in order. -/
def Span.positions (span : Span) : List Nat := List.range' span.start (span.stop - span.start)

/-- Spans without entries have no positions, so nothing is lost where they are left out. -/
theorem Span.flatMap_filter_positions (spans : List Span) :
    (spans.filter fun span => span.start < span.stop).flatMap positions =
      spans.flatMap positions := by
  induction spans with
  | nil => rfl
  | cons span rest ih =>
    rw [List.flatMap_cons, ← ih]
    by_cases holds : span.start < span.stop
    · rw [List.filter_cons_of_pos (by simpa using holds), List.flatMap_cons]
    -- What is left out stands for no position.
    · have nothing : span.positions = [] := List.range'_eq_nil_iff.mpr (by omega)
      rw [List.filter_cons_of_neg (by simpa using holds), nothing, List.nil_append]

namespace Share

variable {S : Type} {table : List (Share S)} {targetSize : Nat}

/-- The positions of a destination's span lie between the counts of entries before it and before the
next one. -/
theorem positions_spanOf (table : List (Share S)) (d : Nat) :
    (spanOf table d).positions =
      List.range' (before table d) (before table (d + 1) - before table d) := by
  by_cases met : d ∈ table.map destination
  · rw [spanOf, if_pos met]
    rfl
  -- Without entries of the destination both counts are the same.
  · have same : before table (d + 1) = before table d :=
      List.countP_congr fun share member => by
        have other : share.destination ≠ d := fun same =>
          met (List.mem_map.mpr ⟨share, member, same⟩)
        simp only [decide_eq_true_eq]
        omega
    rw [spanOf, if_neg met, same, Nat.sub_self]
    rfl

/-- The span of a destination holds the positions of its entries and no others. -/
theorem mem_positions_spanOf (ascending : Ascending table) (d i : Nat) :
    i ∈ (spanOf table d).positions ↔
      ∃ share, table[i]? = some share ∧ share.destination = d := by
  have grows : before table d ≤ before table (d + 1) := before_mono table (Nat.le_succ d)
  rw [positions_spanOf, List.mem_range'_1, Nat.add_sub_of_le grows]
  cases entry : table[i]? with
  | none =>
    -- Counts of entries do not go past the end of the table.
    have past := List.getElem?_eq_none_iff.mp entry
    have most : before table (d + 1) ≤ table.length := List.countP_le_length
    simp only [reduceCtorEq, false_and, exists_false, iff_false]
    omega
  | some share =>
    -- The entry is counted before the next destination, but not before its own.
    rw [← Nat.not_lt, lt_before_iff ascending entry, lt_before_iff ascending entry]
    simp only [Option.some.injEq, exists_eq_left']
    omega

/-- The spans of all destinations, one after another, hold every position of the table. -/
theorem flatMap_positions_spanOf (inside : ∀ share ∈ table, share.destination < targetSize) :
    ((List.range targetSize).map (spanOf table)).flatMap Span.positions =
      List.range table.length := by
  have start : before table 0 = 0 := List.countP_eq_zero.mpr fun share _ => by simp
  have all : before table targetSize = table.length :=
    List.countP_eq_length.mpr fun share member => by simpa using inside share member
  -- Each span starts where the one before it stops.
  rw [List.flatMap_map, ← all,
    ← flatMap_stretches start (fun d => before_mono table (Nat.le_succ d))]
  exact List.flatMap_congr fun d _ => positions_spanOf table d

/-- What the span of destination `d` in a table has to be. -/
structure Owned (table : List (Share S)) (d : Nat) (span : Span) : Prop where
  /-- The span holds the positions of the entries of the destination and no others. -/
  positions : ∀ i, i ∈ span.positions ↔ ∃ share, table[i]? = some share ∧ share.destination = d
  /-- A destination without entries has the empty span at the start of the table. -/
  idle : (∀ share ∈ table, share.destination ≠ d) → span = ⟨0, 0⟩
  /-- The entries read through the span are those of the destination, each of them once. -/
  entries : span.of? table = some (table.filter fun share => share.destination = d)

/-- What the spans of the destinations of a table have to be. -/
structure Partition (table : List (Share S)) (targetSize : Nat) (spans : Array Span) : Prop where
  /-- There is one span for each destination. -/
  size : spans.size = targetSize
  /-- Each destination has its own. -/
  owned : ∀ d span, spans[d]? = some span → Owned table d span
  /-- The spans that have entries, one after another, are the whole table. -/
  whole : (spans.toList.filter fun span => span.start < span.stop).flatMap Span.positions =
    List.range table.length

/-- The span of a destination in an ascending table is its own. -/
theorem owned_spanOf (ascending : Ascending table) (d : Nat) : Owned table d (spanOf table d) where
  positions := mem_positions_spanOf ascending d
  idle others := if_neg fun member => by
    obtain ⟨share, held, same⟩ := List.mem_map.mp member
    exact others share held same
  entries := of?_spanOf ascending d

/-- The spans of an ascending table partition it. -/
theorem exists_partition (ascending : Ascending table)
    (inside : ∀ share ∈ table, share.destination < targetSize) :
    ∃ spans, spans? table targetSize = some spans ∧ Partition table targetSize spans := by
  refine ⟨_, spans?_eq ascending inside, by simp, fun d span found => ?_, ?_⟩
  -- What is stored for a destination is its span.
  · simp only [List.getElem?_toArray, List.getElem?_map, Option.map_eq_some_iff] at found
    obtain ⟨e, listed, rfl⟩ := found
    obtain ⟨bound, same⟩ := List.getElem?_eq_some_iff.mp listed
    rw [← same, List.getElem_range]
    exact owned_spanOf ascending d
  -- Empty spans add nothing to the positions of all.
  · rw [Span.flatMap_filter_positions]
    exact flatMap_positions_spanOf inside

/-- The table of an axis that has samples lists its destinations in ascending order. -/
theorem exists_table? {sourceSize : Nat} (targetSize : Nat) (positive : 0 < sourceSize) :
    ∃ table, table? Float sourceSize targetSize = some table ∧ Ascending table ∧
      ∀ share ∈ table, share.destination < targetSize :=
  ⟨_, table?_eq_table startsInside_float positive, table_ascending positive,
    fun _ member => (mem_table positive member).1⟩

/-- Averaging by overlap takes into each sample of a target the entries of its row and those of its
column, as the tables of both axes list them. -/
theorem exists_resize_tables {depth : Depth} {channels : Nat}
    {source target : View depth.Sample channels} {sample : Nat → Nat → Nat → depth.Sample}
    {rows columns : List (Share Float32)} (accepted : checkChannels channels = .ok ())
    (planned : plan? source.extent target.extent = some .overlaps) (shows : source.Shows sample)
    (down : table? Float source.layout.height target.layout.height = some rows)
    (across : table? Float source.layout.width target.layout.width = some columns) :
    ∃ written, resize .area source target = .ok (some written) ∧ written.layout = target.layout ∧
      written.Shows fun y x c => Overlaps.value (fun row column => sample row column c)
        (rows.filter fun share => share.destination = y)
        (columns.filter fun share => share.destination = x) := by
  have tall := source.fits.height_pos
  have wide := source.fits.width_pos
  obtain ⟨written, finished, layout, values⟩ :=
    exists_resize_overlaps startsInside_float accepted planned shows
  rw [table?_eq_table startsInside_float tall, Option.some.injEq] at down
  rw [table?_eq_table startsInside_float wide, Option.some.injEq] at across
  refine ⟨written, finished, layout, fun y x c inImage inRow inPixel => ?_⟩
  rw [values y x c inImage inRow inPixel]
  rw [layout] at inImage inRow
  -- The entries of a destination are its cell.
  dsimp only
  rw [← down, ← across, filter_table tall inImage, filter_table wide inRow]

/--
The spans of a table partition it.

A table that lists its destinations in ascending order has for every destination the span of its own
entries, and the spans that have entries follow one another from the first entry to the last.  The
table of an axis is such a table, so where overlaps are weighted a row of the target takes in the
entries of its own span, each of them once, and those of no other row.
-/
theorem spans?_partition :
    (∀ {S : Type} (table : List (Share S)) (targetSize : Nat), Ascending table →
      (∀ share ∈ table, share.destination < targetSize) →
      ∃ spans, spans? table targetSize = some spans ∧ Partition table targetSize spans) ∧
    (∀ sourceSize targetSize : Nat, 0 < sourceSize →
      ∃ table, table? Float sourceSize targetSize = some table ∧ Ascending table ∧
        ∀ share ∈ table, share.destination < targetSize) ∧
    ∀ (depth : Depth) {channels : Nat} {source target : View depth.Sample channels}
      {sample : Nat → Nat → Nat → depth.Sample}, checkChannels channels = .ok () →
      plan? source.extent target.extent = some .overlaps → source.Shows sample →
      ∃ rows columns spans written,
        table? Float source.layout.height target.layout.height = some rows ∧
        table? Float source.layout.width target.layout.width = some columns ∧
        spans? rows target.layout.height = some spans ∧
        Partition rows target.layout.height spans ∧
        resize .area source target = .ok (some written) ∧ written.layout = target.layout ∧
        written.Shows fun y x c => Overlaps.value (fun row column => sample row column c)
          (rows.filter fun share => share.destination = y)
          (columns.filter fun share => share.destination = x) := by
  refine ⟨fun _ _ => exists_partition, fun _ targetSize => exists_table? targetSize, ?_⟩
  intro depth channels source target sample accepted planned shows
  -- An accepted source has rows and columns, so both axes have their tables.
  obtain ⟨rows, down, ascending, inside⟩ :=
    exists_table? target.layout.height source.fits.height_pos
  obtain ⟨columns, across, -⟩ := exists_table? target.layout.width source.fits.width_pos
  obtain ⟨spans, collected, partition⟩ := exists_partition ascending inside
  obtain ⟨written, finished, layout, values⟩ :=
    exists_resize_tables accepted planned shows down across
  exact ⟨rows, columns, spans, written, down, across, collected, partition, finished, layout,
    values⟩

/-- A table with entries of the first and the third of four destinations. -/
def gappedTable : List (Share ℚ) := [⟨0, 0, 2 / 3⟩, ⟨0, 1, 1 / 3⟩, ⟨2, 1, 1⟩]

/-- A column of three bytes. -/
def threeRows : View UInt8 1 := ⟨⟨3, 1, 1⟩, #[0, 30, 60], Layout.check_eq_ok_iff.mp rfl⟩

/-- A column of two bytes. -/
def twoRows : View UInt8 1 := ⟨⟨2, 1, 1⟩, #[7, 7], Layout.check_eq_ok_iff.mp rfl⟩

/-- The bytes of the column go up by thirty. -/
theorem threeRows_shows : threeRows.Shows fun y _ _ => #[0, 30, 60].getD y 0 := by
  intro y x c inImage inRow inPixel
  -- A view of one column: only the row is left to tell apart.
  obtain rfl : x = 0 := Nat.lt_one_iff.mp inRow
  obtain rfl : c = 0 := Nat.lt_one_iff.mp inPixel
  obtain rfl | rfl | rfl : y = 0 ∨ y = 1 ∨ y = 2 := by
    have : y < 3 := inImage
    omega
  · rfl
  · rfl
  · rfl

/-- A table with gaps has empty spans in them, and a column of three bytes is averaged to two of
which each takes in its own two entries. -/
theorem spans?_partition_gappedTable :
    (Ascending gappedTable ∧ (∀ share ∈ gappedTable, share.destination < 4) ∧
      spans? gappedTable 4 = some #[⟨0, 2⟩, ⟨0, 0⟩, ⟨2, 3⟩, ⟨0, 0⟩] ∧
      Partition gappedTable 4 #[⟨0, 2⟩, ⟨0, 0⟩, ⟨2, 3⟩, ⟨0, 0⟩]) ∧
    (0 < 3 ∧ ∃ table, table? Float 3 2 = some table ∧ Ascending table ∧
      spans? table 2 = some #[⟨0, 2⟩, ⟨2, 4⟩]) ∧
    checkChannels 1 = .ok () ∧ plan? threeRows.extent twoRows.extent = some .overlaps ∧
    threeRows.Shows (fun y _ _ => #[0, 30, 60].getD y 0) ∧
    ∃ written, resize .area threeRows twoRows = .ok (some written) ∧
      written.sample? 0 0 0 = some 10 ∧ written.sample? 1 0 0 = some 50 := by
  obtain ⟨partitions, lists, weights⟩ := @spans?_partition
  -- The second and the last destination have no entries.
  have ascending : Ascending gappedTable := by simp [Ascending, gappedTable]
  have inside : ∀ share ∈ gappedTable, share.destination < 4 := by decide
  obtain ⟨spans, collected, partition⟩ := partitions gappedTable 4 ascending inside
  obtain rfl : spans = #[⟨0, 2⟩, ⟨0, 0⟩, ⟨2, 3⟩, ⟨0, 0⟩] :=
    Option.some.inj (collected.symm.trans rfl)
  refine ⟨⟨ascending, inside, collected, partition⟩, ⟨by decide, ?_⟩, rfl, rfl, threeRows_shows, ?_⟩
  · -- The range of each destination is read off the computed table.
    obtain ⟨table, built, order, -⟩ := lists 3 2 (by decide)
    have cut : (table? Float 3 2).bind (spans? · 2) = some #[⟨0, 2⟩, ⟨2, 4⟩] := by decide +kernel
    rw [built] at cut
    exact ⟨table, built, order, cut⟩
  · -- The two weights of a destination are two thirds and one third.
    obtain ⟨-, -, -, written, -, -, -, -, finished, -⟩ :=
      @weights .byte 1 threeRows twoRows _ rfl rfl threeRows_shows
    have top : ((resize .area threeRows twoRows).toOption.join.bind fun written =>
        written.sample? 0 0 0) = some 10 := by decide +kernel
    have bottom : ((resize .area threeRows twoRows).toOption.join.bind fun written =>
        written.sample? 1 0 0) = some 50 := by decide +kernel
    have same : resize .area threeRows twoRows = .ok (some written) := finished
    rw [same] at top bottom
    exact ⟨written, same, top, bottom⟩

end Share

end Raster.Area
