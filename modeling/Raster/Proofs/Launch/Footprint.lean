import Raster.Proofs.Kernel.Transform

/-!
What a job reads and what it writes.  Main statements: `Region.write_overwrites`, writing a view
back changes visible samples of the region alone, `Job.run_congr`, a job depends on the buffers
that it reads and changes the place that it writes, `Job.run_lengths`, no job changes the length
of a buffer, and `Launch.footprint`, what an accepted launch reads and writes is named in it.
-/

namespace Raster

/-- What a job can write: a buffer or the result of a norm. -/
inductive Place where
  | buffer (name : String)
  | norm (slot : Nat)
  deriving DecidableEq, Repr

@[simp] theorem Buffer.samplesAt_self (depth : Depth) (samples : Array depth.Sample) :
    (⟨depth, samples⟩ : Buffer).samplesAt depth = samples := by
  simp [samplesAt]

namespace Memory

/-- The memory with one place, if any, as another memory has it. -/
def take (memory source : Memory) : Option Place → Memory
  -- A job that writes nothing takes nothing over.
  | none => memory
  | some (.buffer name) => memory.setBuffer name (source.buffer name)
  | some (.norm slot) => memory.setNorm slot (source.norm slot)

/-- Only the buffer that is taken over comes from the other memory. -/
theorem buffer_take (memory source : Memory) (place : Option Place) (name : String) :
    (memory.take source place).buffer name =
      if place = some (.buffer name) then source.buffer name else memory.buffer name := by
  -- Taking over the norm of a slot is no store to any buffer.
  cases place with
  | none => simp [take]
  | some place =>
    cases place with
    | buffer own =>
      by_cases same : name = own
      · subst same
        simp [take]
      · simp [take, same, Ne.symm same]
    | norm slot => simp [take]

/-- Only the norm that is taken over comes from the other memory. -/
theorem norm_take (memory source : Memory) (place : Option Place) (slot : Nat) :
    (memory.take source place).norm slot =
      if place = some (.norm slot) then source.norm slot else memory.norm slot := by
  -- Taking over a buffer is no store to any slot.
  cases place with
  | none => simp [take]
  | some place =>
    cases place with
    | buffer name => simp [take]
    | norm own =>
      by_cases same : slot = own
      · subst same
        simp [take]
      · simp [take, same, Ne.symm same]

/-- Memories with the same buffers and the same norms are the same. -/
theorem eq_of_places {memory other : Memory}
    (buffers : ∀ name, memory.buffer name = other.buffer name)
    (norms : ∀ slot, memory.norm slot = other.norm slot) : memory = other := by
  -- A memory is nothing but its buffers and its norms.
  cases memory
  cases other
  rw [mk.injEq]
  exact ⟨funext buffers, funext norms⟩

/-- Two places that are not the same are taken over in either order. -/
theorem take_comm (memory left right : Memory) {first second : Option Place}
    (apart : ∀ place, first = some place → second ≠ some place) :
    (memory.take left first).take right second = (memory.take right second).take left first := by
  -- Of two places that differ, one at most is the one looked at.
  apply eq_of_places
  · intro name
    simp only [buffer_take]
    by_cases held : first = some (.buffer name)
    · simp [held, apart _ held]
    · simp [held]
  · intro slot
    simp only [norm_take]
    by_cases held : first = some (.norm slot)
    · simp [held, apart _ held]
    · simp [held]

end Memory

namespace Region

/-- The places of a buffer that hold the visible samples of a region. -/
def Holds (region : Region) (channels place : Nat) : Prop :=
  ∃ y k, y < region.height ∧ k < region.width * channels ∧
    place = region.offset + (y * (region.layout channels).stride + k)

@[simp] theorem layout_height (region : Region) (channels : Nat) :
    (region.layout channels).height = region.height := by
  unfold layout Layout.ofStride
  split <;> rfl

@[simp] theorem layout_width (region : Region) (channels : Nat) :
    (region.layout channels).width = region.width := by
  unfold layout Layout.ofStride
  split <;> rfl

/-- The places of a region are those of its layout, moved by the offset. -/
theorem holds_iff {region : Region} {channels place : Nat} :
    region.Holds channels place ↔ ∃ inner, (region.layout channels).Holds channels inner ∧
      place = region.offset + inner := by
  -- A region lays its samples out as a view does, with the offset in front.
  simp only [Holds, Layout.Holds, Layout.rowLength, Layout.rowStart, layout_height, layout_width]
  constructor
  · rintro ⟨y, k, inImage, inRow, rfl⟩
    exact ⟨_, ⟨y, k, inImage, inRow, rfl⟩, rfl⟩
  · rintro ⟨_, ⟨y, k, inImage, inRow, rfl⟩, rfl⟩
    exact ⟨y, k, inImage, inRow, rfl⟩

variable {region : Region} {memory other : Memory} {depth : Depth} {channels : Nat}
variable {view written : View depth.Sample channels}

/-- A region is seen as its layout over the samples from its offset to the end of the buffer. -/
theorem view_eq_ok (seen : region.view memory depth channels = .ok view) :
    view.layout = region.layout channels ∧ view.data = region.part memory depth :=
  (View.of_make seen).2

/-- A region that is seen lies in a buffer of its own depth and starts before the buffer's end. -/
theorem offset_lt (seen : region.view memory depth channels = .ok view) :
    (memory.buffer region.buffer).depth = depth ∧
      region.offset < ((memory.buffer region.buffer).samplesAt depth).size := by
  -- A view has at least one sample, and a buffer of another depth has none to offer.
  have positive := view.fits.length_pos
  rw [(view_eq_ok seen).2, part, Array.size_extract] at positive
  have inside : region.offset < ((memory.buffer region.buffer).samplesAt depth).size := by omega
  refine ⟨?_, inside⟩
  by_contra differ
  rw [Buffer.size_samplesAt, Buffer.length, if_neg differ] at inside
  omega

/-- What a region shows depends on its own buffer alone. -/
theorem view_congr (same : memory.buffer region.buffer = other.buffer region.buffer) :
    region.view other depth channels = region.view memory depth channels := by
  simp only [view, part, same]

/-- Writing changes the region's own buffer, to what its previous content determines. -/
theorem write_eq_take (same : memory.buffer region.buffer = other.buffer region.buffer) :
    region.write other written =
      other.take (region.write memory written) (some (.buffer region.buffer)) := by
  simp [write, Memory.take, same]

/-- The part before the offset is kept, and what was written follows it. -/
theorem buffer_write (region : Region) (memory : Memory) (written : View depth.Sample channels) :
    (region.write memory written).buffer region.buffer =
      ⟨depth, ((memory.buffer region.buffer).samplesAt depth).extract 0 region.offset ++
        written.data⟩ :=
  if_pos rfl

end Region

/-- Two memories differ in visible samples of a region alone. -/
structure Memory.Overwrites (after before : Memory) (region : Region) (depth : Depth)
    (channels : Nat) : Prop where
  -- Whatever the region is, jobs on images report no norm.
  norms : after.norm = before.norm
  buffers : ∀ name, name ≠ region.buffer → after.buffer name = before.buffer name
  lengths : after.lengths = before.lengths
  -- Nor does the rest of the region's own buffer change.
  rest : ∀ place, ¬ region.Holds channels place →
    ((after.buffer region.buffer).samplesAt depth)[place]? =
      ((before.buffer region.buffer).samplesAt depth)[place]?

namespace Region

variable {region : Region} {memory : Memory} {depth : Depth} {channels : Nat}
variable {view written : View depth.Sample channels}

/-- Behind the offset the buffer holds what was written. -/
theorem getElem?_write (seen : region.view memory depth channels = .ok view) (inner : Nat) :
    (((region.write memory written).buffer region.buffer).samplesAt depth)[region.offset + inner]? =
      written.data[inner]? := by
  -- What stands before the offset has as many samples as are skipped.
  obtain ⟨-, inside⟩ := offset_lt seen
  rw [buffer_write, Buffer.samplesAt_self, Array.getElem?_append_right]
  · congr 1
    rw [Array.size_extract]
    omega
  · rw [Array.size_extract]
    omega

/-- Writing back as many samples as were seen changes the length of no buffer. -/
theorem write_lengths (seen : region.view memory depth channels = .ok view)
    (size : written.data.size = view.data.size) :
    (region.write memory written).lengths = memory.lengths := by
  obtain ⟨own, inside⟩ := offset_lt seen
  rw [(view_eq_ok seen).2, part, Array.size_extract] at size
  funext name deep
  by_cases same : name = region.buffer
  · subst same
    by_cases fits : depth = deep
    · -- The part before the offset and the part behind it make up the whole buffer again.
      subst fits
      rw [Memory.lengths, Memory.lengths, ← Buffer.size_samplesAt, ← Buffer.size_samplesAt,
        buffer_write, Buffer.samplesAt_self, Array.size_append, Array.size_extract, size]
      omega
    · simp [Memory.lengths, buffer_write, Buffer.length, own, fits]
  · simp [Memory.lengths, write, same]

/-- Writing back a view that differs in visible samples changes visible samples of the region
alone. -/
theorem write_overwrites (seen : region.view memory depth channels = .ok view)
    (left : written.Overwrites view) :
    (region.write memory written).Overwrites memory region depth channels := by
  obtain ⟨layout, data⟩ := view_eq_ok seen
  obtain ⟨-, inside⟩ := offset_lt seen
  -- Of the four parts only the last says something about the samples of the region's own buffer.
  refine ⟨rfl, ?_, write_lengths seen left.size, ?_⟩
  · intro name differs
    simp [write, differs]
  · intro place hidden
    -- Before the offset stands what stood there.
    by_cases before : place < region.offset
    · rw [buffer_write, Buffer.samplesAt_self, Array.getElem?_append_left, Array.getElem?_extract,
        if_pos (by omega)]
      · rw [Nat.zero_add]
      · rw [Array.size_extract]
        omega
    · -- Past it stand the samples of the view, which was overwritten in its visible places alone.
      obtain ⟨inner, rfl⟩ := Nat.exists_eq_add_of_le (Nat.le_of_not_lt before)
      rw [getElem?_write seen, left.rest]
      · rw [data, part, Array.getElem?_extract]
        by_cases last : inner < ((memory.buffer region.buffer).samplesAt depth).size -
            region.offset
        · rw [if_pos (by omega)]
        · rw [if_neg (by omega), Array.getElem?_eq_none (by omega)]
      · -- A visible place of the view is one of the region.
        rw [layout]
        intro visible
        exact hidden (holds_iff.mpr ⟨inner, visible, rfl⟩)

end Region

/-- Work has yielded something exactly when it was not refused and did not fault. -/
theorem settled_eq_some_iff {α : Type} {result : Except Refusal (Option α)} {value : α} :
    settled result = some value ↔ result = .ok (some value) := by
  -- A refusal settles nothing, and neither does a fault.
  cases result with
  | error reason => simp [settled, Except.toOption]
  | ok outcome => simp [settled, Except.toOption]

/-- The job of a kernel that writes an image from one region over another. -/
def Writer.job (writer : Writer) (depth : Depth) (channels : Nat) (source target : Region) : Job :=
  match writer with
  | .resize mode => .resize depth channels mode source target
  | .boxFilter window => .boxFilter depth channels window source target

namespace Job

/-- The buffers whose content a job depends on; a kernel keeps what it does not overwrite. -/
def reads : Job → List String
  -- Writing keeps the rest of the target, so the target is read, too.
  | .resize _ _ _ source target => [source.buffer, target.buffer]
  | .boxFilter _ _ _ source target => [source.buffer, target.buffer]
  | .norm _ _ _ source mask _ => source.buffer :: mask.toList.map Region.buffer
  | .fence => []

/-- The place that a job writes. -/
def place? : Job → Option Place
  -- Only a norm writes to a slot, and only the others to a buffer.
  | .resize _ _ _ _ target => some (.buffer target.buffer)
  | .boxFilter _ _ _ _ target => some (.buffer target.buffer)
  | .norm _ _ _ _ _ slot => some (.norm slot)
  | .fence => none

variable {limit : Nat} {memory other : Memory}

/-- A writer's job runs the kernel on the views of its regions and writes its result back. -/
theorem run_writer (limit : Nat) (memory : Memory) (writer : Writer) (depth : Depth)
    (channels : Nat) (source target : Region) :
    (writer.job depth channels source target).run limit memory =
      (settled do
        let sourceView ← source.view memory depth channels
        let targetView ← target.view memory depth channels
        writer.run sourceView targetView).map (target.write memory) := by
  -- Either way the views are made first, and the store comes last.
  cases writer with
  | resize mode => exact Option.map_eq_bind.symm
  | boxFilter window => exact Option.map_eq_bind.symm

/-- A writer's job that sees its regions runs when its kernel does, and writes what that gives. -/
theorem run_of_written {writer : Writer} {depth : Depth} {channels : Nat} {source target : Region}
    {sourceView targetView written : View depth.Sample channels}
    (seen : source.view memory depth channels = .ok sourceView)
    (held : target.view memory depth channels = .ok targetView)
    (given : writer.run sourceView targetView = .ok (some written)) (limit : Nat) :
    (writer.job depth channels source target).run limit memory =
      some (target.write memory written) := by
  -- With both views made, only the kernel is left to run.
  rw [run_writer, seen, held]
  show (settled (writer.run sourceView targetView)).map _ = _
  rw [given]
  rfl

/-- A writer's job that has run saw its regions, and it wrote what its kernel gave. -/
theorem written_of_run {writer : Writer} {depth : Depth} {channels : Nat} {source target : Region}
    {after : Memory}
    (finished : (writer.job depth channels source target).run limit memory = some after) :
    ∃ sourceView targetView written, source.view memory depth channels = .ok sourceView ∧
      target.view memory depth channels = .ok targetView ∧
      writer.run sourceView targetView = .ok (some written) ∧
      after = target.write memory written := by
  -- The views that were made and the kernel that finished are those the run went through.
  rw [run_writer, Option.map_eq_some_iff] at finished
  obtain ⟨written, given, rfl⟩ := finished
  obtain ⟨sourceView, seen, rest⟩ := judged (settled_eq_some_iff.mp given)
  obtain ⟨targetView, held, result⟩ := judged rest
  exact ⟨sourceView, targetView, written, seen, held, result, rfl⟩

/-- A writer's job depends on its two buffers, and it changes the second one alone. -/
theorem run_writer_congr (writer : Writer) (depth : Depth) (channels : Nat)
    {source target : Region} (limit : Nat)
    (first : memory.buffer source.buffer = other.buffer source.buffer)
    (second : memory.buffer target.buffer = other.buffer target.buffer) :
    (writer.job depth channels source target).run limit other =
      ((writer.job depth channels source target).run limit memory).map fun after =>
        other.take after (some (.buffer target.buffer)) := by
  -- Both buffers that are read have the same samples, so the views and what is written are the
  -- same.
  rw [run_writer, run_writer, Region.view_congr first, Region.view_congr second, Option.map_map]
  congr 1
  funext written
  exact Region.write_eq_take second

/-- A job depends on the buffers that it reads, and it changes the place that it writes alone. -/
theorem run_congr (job : Job) (limit : Nat)
    (agree : ∀ name ∈ job.reads, memory.buffer name = other.buffer name) :
    job.run limit other = (job.run limit memory).map fun after => other.take after job.place? := by
  cases job with
  | resize depth channels mode source target =>
    exact run_writer_congr (.resize mode) depth channels limit (agree _ (by simp [reads]))
      (agree _ (by simp [reads]))
  | boxFilter depth channels window source target =>
    exact run_writer_congr (.boxFilter window) depth channels limit (agree _ (by simp [reads]))
      (agree _ (by simp [reads]))
  | norm depth channels kind source mask slot =>
    -- The image and the mask are seen alike, and the value goes into the slot.
    have seen : source.view other depth channels = source.view memory depth channels :=
      Region.view_congr (agree _ (by simp [reads]))
    cases mask with
    | none =>
      simp only [run, seen]
      cases settled _ with
      | none => rfl
      | some value => simp [place?, Memory.take]
    | some mask =>
      have marks : mask.view other .byte 1 = mask.view memory .byte 1 :=
        Region.view_congr (agree _ (by simp [reads]))
      simp only [run, seen, marks]
      cases settled _ with
      | none => rfl
      | some value => simp [place?, Memory.take]
  | fence => rfl

/-- What a job leaves behind differs from what it found in the place that it writes alone. -/
theorem eq_take_of_run {job : Job} {after : Memory} (finished : job.run limit memory = some after) :
    after = memory.take after job.place? := by
  -- A memory agrees with itself on what the job reads.
  have same : job.run limit memory = (job.run limit memory).map fun after =>
      memory.take after job.place? := job.run_congr limit fun _ _ => rfl
  rw [finished, Option.map_some, Option.some.injEq] at same
  exact same

/-- No job changes the length of a buffer. -/
theorem run_lengths {job : Job} {after : Memory} (finished : job.run limit memory = some after) :
    after.lengths = memory.lengths := by
  have written : ∀ (writer : Writer) depth channels source target,
      (writer.job depth channels source target).run limit memory = some after →
      after.lengths = memory.lengths := by
    intro writer depth channels source target finished
    obtain ⟨sourceView, targetView, result, -, held, given, rfl⟩ := written_of_run finished
    obtain ⟨_, same, left, -⟩ := Writer.overwrites given
    cases same
    exact (Region.write_overwrites held left).lengths
  cases job with
  | resize depth channels mode source target =>
    exact written (.resize mode) depth channels source target finished
  | boxFilter depth channels window source target =>
    exact written (.boxFilter window) depth channels source target finished
  | norm depth channels kind source mask slot =>
    -- A norm leaves all buffers as they are.
    rw [eq_take_of_run finished]
    funext name deep
    simp [Memory.lengths, Memory.buffer_take, place?]
  | fence =>
    cases finished
    rfl

end Job

namespace Launch

/-- The launch writes an image of a source region over a target region. -/
inductive Writes (depth : Depth) (channels : Nat) (source target : Region) : Launch → Prop where
  | resize (mode : Resampling) :
      Writes depth channels source target (.resize depth channels mode source target)
  | boxFilter (request : WindowRequest) (time : WindowTime) :
      Writes depth channels source target (.boxFilter depth channels request time source target)

variable {depth : Depth} {channels slot : Nat} {source target : Region}
variable {lengths : String → Depth → Nat} {job : Job}

/-- An accepted launch that writes becomes the job of a kernel; its regions and that kernel's
judgements have been passed. -/
theorem Writes.exists_writer {launch : Launch} (writes : launch.Writes depth channels source target)
    (accepted : launch.accept lengths slot = .ok job) :
    ∃ writer : Writer, job = writer.job depth channels source target ∧
      source.check lengths depth channels = .ok () ∧
      target.check lengths depth channels = .ok () ∧
      writer.judge channels source.extent target.extent = .ok () := by
  -- The judgements are taken in the order of the kernel.
  cases writes with
  | resize mode =>
    obtain ⟨_, first, accepted⟩ := judged accepted
    obtain ⟨_, second, accepted⟩ := judged accepted
    obtain ⟨_, supported, accepted⟩ := judged accepted
    cases accepted
    exact ⟨.resize mode, rfl, first, second, supported⟩
  | boxFilter request time =>
    cases time with
    -- The window is judged before the views or after them, as the entry has it.
    | before =>
      obtain ⟨window, -, accepted⟩ := judged accepted
      obtain ⟨_, first, accepted⟩ := judged accepted
      obtain ⟨_, second, accepted⟩ := judged accepted
      obtain ⟨_, supported, accepted⟩ := judged accepted
      obtain ⟨_, same, accepted⟩ := judged accepted
      cases accepted
      refine ⟨.boxFilter window, rfl, first, second, ?_⟩
      simp only [Writer.judge, supported]
      exact same
    | after =>
      obtain ⟨border, -, accepted⟩ := judged accepted
      obtain ⟨_, first, accepted⟩ := judged accepted
      obtain ⟨_, second, accepted⟩ := judged accepted
      obtain ⟨window, -, accepted⟩ := judged accepted
      obtain ⟨_, supported, accepted⟩ := judged accepted
      obtain ⟨_, same, accepted⟩ := judged accepted
      cases accepted
      refine ⟨.boxFilter window, rfl, first, second, ?_⟩
      simp only [Writer.judge, supported]
      exact same

/-- An accepted norm becomes the job of a norm of the same samples; its regions have been passed,
and its mask, if any, has the extent of its image. -/
theorem exists_norm_job {code : Int} {mask : Option Region}
    (accepted : (norm depth channels code source mask).accept lengths slot = .ok job) :
    ∃ kind, job = .norm depth channels kind source mask slot ∧
      source.check lengths depth channels = .ok () ∧ checkChannels channels = .ok () ∧
      ∀ region ∈ mask, region.check lengths .byte 1 = .ok () ∧ source.extent = region.extent := by
  -- The mask is judged between the image and its channels.
  obtain ⟨kind, -, accepted⟩ := judged accepted
  obtain ⟨_, first, accepted⟩ := judged accepted
  cases mask with
  | none =>
    obtain ⟨_, supported, accepted⟩ := judged accepted
    cases accepted
    exact ⟨kind, rfl, first, supported, fun _ held => nomatch held⟩
  | some mask =>
    obtain ⟨_, second, accepted⟩ := judged accepted
    obtain ⟨_, supported, accepted⟩ := judged accepted
    obtain ⟨_, same, accepted⟩ := judged accepted
    cases accepted
    refine ⟨kind, rfl, first, supported, ?_⟩
    -- Only a mask that is there has anything to be judged.
    rintro region ⟨⟩
    exact ⟨second, eq_of_checkExtent same⟩

/-- The regions that a launch takes its image and its mask from. -/
def sources : Launch → List Region
  -- The target is not among the sources, even though it is read.
  | .resize _ _ _ source _ => [source]
  | .boxFilter _ _ _ _ source _ => [source]
  | .norm _ _ _ source mask => source :: mask.toList
  | .fence => []

/-- The place that a launch writes when it is accepted with a result slot. -/
def place? (slot : Nat) (launch : Launch) : Option Place :=
  -- A launch writes to its target or else to the slot that its norm was given.
  match launch.target? with
  | some target => some (.buffer target.buffer)
  | none => if launch.isNorm then some (.norm slot) else none

/-- A launch writes a buffer when that is the buffer of its target. -/
theorem place?_eq_buffer_iff {launch : Launch} {name : String} :
    launch.place? slot = some (.buffer name) ↔
      ∃ region ∈ launch.target?, region.buffer = name := by
  cases launch <;> simp [place?, target?, isNorm]

/-- A launch writes a result when it is a norm and the result is in its own slot. -/
theorem place?_eq_norm_iff {launch : Launch} {own : Nat} :
    launch.place? slot = some (.norm own) ↔ launch.isNorm ∧ slot = own := by
  cases launch <;> simp [place?, target?, isNorm]

/-- The job of an accepted launch reads the buffers of the launch's regions and writes its place. -/
theorem footprint {launch : Launch} (accepted : launch.accept lengths slot = .ok job) :
    job.reads = (launch.sources ++ launch.target?.toList).map Region.buffer ∧
      job.place? = launch.place? slot := by
  -- Every accepted launch has the job of its kernel, with the regions it was given.
  cases launch with
  | resize depth channels mode source target =>
    obtain ⟨writer, rfl, -⟩ := (Writes.resize mode).exists_writer accepted
    cases writer <;> exact ⟨rfl, rfl⟩
  | boxFilter depth channels request time source target =>
    obtain ⟨writer, rfl, -⟩ := (Writes.boxFilter request time).exists_writer accepted
    cases writer <;> exact ⟨rfl, rfl⟩
  | norm depth channels code source mask =>
    obtain ⟨kind, rfl, -⟩ := exists_norm_job accepted
    -- The reads of a mask that is there come after those of the image.
    refine ⟨?_, rfl⟩
    simp [Job.reads, sources, target?]
  | fence =>
    cases accepted
    exact ⟨rfl, rfl⟩

end Launch

end Raster
