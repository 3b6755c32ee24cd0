import Raster.Proofs.Workflow.Verdict

/-!
Scopes as launches performed one by one.  Main statements: `Scope.exists_run_serial`, a scope
leaves the buffers and reports the norms that its launches leave when each is performed on its own,
and `Launch.serial_filter`, launches performed one by one do not notice that refused ones are gone.
-/

namespace Raster

open Scope (fresh pendingNorm ticketsFrom)

/-- Memories with the same buffers have buffers of the same lengths. -/
theorem Memory.lengths_congr {memory other : Memory} (same : memory.buffer = other.buffer) :
    memory.lengths = other.lengths := by
  -- A length is that of a buffer, and norms have none.
  funext name depth
  rw [lengths, lengths, same]

/-- A norm depends on the buffers alone and changes its slot alone. -/
theorem Job.run_norm_congr {memory other : Memory} (same : memory.buffer = other.buffer)
    (limit slot own : Nat) (depth : Depth) (channels : Nat) (kind : NormKind) (source : Region)
    (mask : Option Region) :
    (norm depth channels kind source mask slot).run limit memory =
      ((norm depth channels kind source mask own).run limit other).map fun after =>
        memory.setNorm slot (after.norm own) := by
  -- The image and the mask are seen alike, so the same value goes into either slot.
  have seen : ∀ (region : Region) (depth : Depth) (channels : Nat),
      region.view memory depth channels = region.view other depth channels :=
    fun _ _ _ => Region.view_congr (by rw [same])
  cases mask with
  | none =>
    simp only [run, seen]
    cases settled _ with
    | none => rfl
    | some value => simp
  | some mask =>
    simp only [run, seen]
    cases settled _ with
    | none => rfl
    | some value => simp

namespace Launch

/-- The job of an accepted launch without a result leaves, wherever the buffers are the same, the
same buffers and all results as they were. -/
theorem exists_run_of_silent {launch : Launch} {lengths : String → Depth → Nat} {job : Job}
    {memory other after : Memory} {limit : Nat} (accepted : launch.accept lengths 0 = .ok job)
    (same : memory.buffer = other.buffer) (finished : job.run limit other = some after)
    (silent : launch.isNorm = false) :
    ∃ again, job.run limit memory = some again ∧ again.buffer = after.buffer ∧
      ∀ i, again.norm i = memory.norm i := by
  obtain ⟨-, place⟩ := footprint accepted
  have run : job.run limit memory =
      (job.run limit other).map fun after => memory.take after job.place? :=
    job.run_congr limit fun _ _ => by rw [same]
  refine ⟨memory.take after job.place?, by rw [run, finished]; rfl, ?_, fun i => ?_⟩
  -- The buffer that is written is taken over, and the others were the same before.
  · have left := Job.eq_take_of_run finished
    funext name
    rw [Memory.buffer_take, same]
    split
    · rfl
    · rename_i outside
      rw [left, Memory.buffer_take, if_neg outside]
  -- The place that is written is none of the results.
  · have elsewhere : job.place? ≠ some (.norm i) := by
      rw [place]
      intro own
      have isNorm := (place?_eq_norm_iff.mp own).1
      rw [silent] at isNorm
      cases isNorm
    rw [Memory.norm_take, if_neg elsewhere]

/-- The job of an accepted launch does in any slot what it does in the first one. -/
theorem exists_run_withSlot {launch : Launch} {lengths : String → Depth → Nat} {job : Job}
    {memory other after : Memory} {limit : Nat} (accepted : launch.accept lengths 0 = .ok job)
    (same : memory.buffer = other.buffer) (finished : job.run limit other = some after)
    (slot : Nat) :
    ∃ again, (job.withSlot slot).run limit memory = some again ∧ again.buffer = after.buffer ∧
      ∀ i, again.norm i = if launch.isNorm ∧ i = slot then after.norm 0 else memory.norm i := by
  -- A job without a result is the same job in every slot.
  have without : launch.isNorm = false → job.withSlot slot = job →
      ∃ again, (job.withSlot slot).run limit memory = some again ∧ again.buffer = after.buffer ∧
        ∀ i, again.norm i = if launch.isNorm ∧ i = slot then after.norm 0 else memory.norm i := by
    intro silent unchanged
    obtain ⟨again, run, buffers, norms⟩ := exists_run_of_silent accepted same finished silent
    refine ⟨again, by rw [unchanged, run], buffers, fun i => ?_⟩
    rw [norms, silent]
    simp
  cases launch with
  | resize depth channels mode source target =>
    obtain ⟨writer, rfl, -⟩ := (Writes.resize mode).exists_writer accepted
    exact without rfl (by cases writer <;> rfl)
  | boxFilter depth channels request time source target =>
    obtain ⟨writer, rfl, -⟩ := (Writes.boxFilter request time).exists_writer accepted
    exact without rfl (by cases writer <;> rfl)
  | norm depth channels code source mask =>
    obtain ⟨kind, rfl, -⟩ := exists_norm_job accepted
    have run := Job.run_norm_congr same limit slot 0 depth channels kind source mask
    refine ⟨memory.setNorm slot (after.norm 0), by rw [Job.withSlot, run, finished]; rfl, ?_, ?_⟩
    · rw [Memory.buffer_setNorm, same, Job.eq_take_of_run finished]
      funext name
      simp [Memory.buffer_take, Job.place?]
    · intro i
      simp [isNorm]
  | fence =>
    cases accepted
    exact without rfl rfl

/-- What a launch leaves when it is performed on its own, with no result so far; nothing, when it
is refused. -/
def leave (limit : Nat) (memory : Memory) (launch : Launch) : Option Memory :=
  -- Work that is refused leaves the memory as it came, without the norms of before.
  match launch.perform limit (fresh memory) with
  | .error _ => some (fresh memory)
  | .ok after => after

/-- What launches leave when they are performed one by one, and the results of the norms. -/
def serial (limit : Nat) : List Launch → Memory → Option (Memory × List Float)
  -- Every launch starts from what the one before it left, with a norm slot of its own.
  | [], memory => some (memory, [])
  | launch :: rest, memory => do
    let after ← launch.leave limit memory
    let (final, norms) ← serial limit rest after
    return (final, (if launch.isNorm then [after.norm 0] else []) ++ norms)

variable {limit : Nat} {launch : Launch} {memory after : Memory}

/-- A refused launch leaves the buffers as they are. -/
theorem leave_of_refused (refused : launch.passes memory.lengths = false) :
    launch.leave limit memory = some (fresh memory) := by
  -- Being refused does not depend on the norms, which are all that is fresh.
  unfold passes at refused
  cases answer : launch.accept memory.lengths 0 with
  | error reason =>
    have answer : launch.accept (fresh memory).lengths 0 = .error reason := answer
    simp only [leave, perform, answer]
    rfl
  | ok job => simp [answer, Except.toOption] at refused

/-- An accepted launch leaves what its job leaves. -/
theorem leave_of_accepted {job : Job} (accepted : launch.accept memory.lengths 0 = .ok job) :
    launch.leave limit memory = job.run limit (fresh memory) := by
  -- The lengths of the buffers are those that the launch was judged by.
  have accepted : launch.accept (fresh memory).lengths 0 = .ok job := accepted
  simp only [leave, perform, accepted]
  rfl

/-- A launch leaves the lengths of the buffers as they are. -/
theorem leave_lengths (left : launch.leave limit memory = some after) :
    after.lengths = memory.lengths := by
  -- Refused work leaves everything, and a job keeps the lengths of what it writes.
  cases answer : launch.accept memory.lengths 0 with
  | error reason =>
    rw [leave_of_refused (by simp [passes, answer, Except.toOption])] at left
    cases left
    rfl
  | ok job =>
    rw [leave_of_accepted answer] at left
    have lengths := Job.run_lengths left
    exact lengths

/-- What a launch leaves depends on the buffers alone. -/
theorem leave_congr {other : Memory} (same : other.buffer = memory.buffer) (limit : Nat)
    (launch : Launch) : launch.leave limit other = launch.leave limit memory := by
  -- Starting afresh forgets the norms, in which alone the memories differ.
  have start : fresh other = fresh memory := by rw [fresh, fresh, same]
  rw [leave, leave, start]

/-- The first launch is performed, and the others on what it leaves. -/
theorem serial_cons {rest : List Launch} {final : Memory} {norms : List Float}
    (left : launch.leave limit memory = some after)
    (finished : serial limit rest after = some (final, norms)) :
    serial limit (launch :: rest) memory =
      some (final, (if launch.isNorm then [after.norm 0] else []) ++ norms) := by
  -- The first launch is performed, and the others go on from what it leaves.
  rw [serial, left]
  simp only [Option.bind_eq_bind, Option.bind_some, finished]
  rfl

/-- Launches performed one by one do not notice that refused ones are gone. -/
theorem serial_filter {launches : List Launch} {other final : Memory} {norms : List Float}
    (same : other.buffer = memory.buffer)
    (finished : serial limit launches memory = some (final, norms)) :
    ∃ last, serial limit (launches.filter (passes memory.lengths)) other =
        some (last, (((launches.filter isNorm).zip norms).filter
          fun entry => entry.1.passes memory.lengths).map Prod.snd) ∧
      last.buffer = final.buffer := by
  -- The two runs keep the same buffers; a refused launch leaves them alone in the longer one.
  induction launches generalizing memory other final norms with
  | nil =>
    cases finished
    exact ⟨other, rfl, same⟩
  | cons launch rest ih =>
    obtain ⟨after, left, going⟩ := Option.bind_eq_some_iff.mp finished
    obtain ⟨⟨reached, later⟩, ended, given⟩ := Option.bind_eq_some_iff.mp going
    cases given
    have lengths := leave_lengths left
    by_cases passed : launch.passes memory.lengths
    · obtain ⟨last, again, buffers⟩ := ih rfl ended
      rw [lengths] at again
      refine ⟨last, ?_, buffers⟩
      rw [List.filter_cons_of_pos passed, serial_cons ((leave_congr same limit launch).trans left)
        again]
      by_cases isNorm : launch.isNorm
      · simp [isNorm, passed]
      · simp [isNorm]
    · rw [leave_of_refused (by simpa using passed), Option.some.injEq] at left
      subst left
      obtain ⟨last, again, buffers⟩ := @ih (fresh memory) _ _ _ same ended
      rw [lengths] at again
      refine ⟨last, ?_, buffers⟩
      rw [List.filter_cons_of_neg passed, again]
      by_cases isNorm : launch.isNorm
      · simp [isNorm, passed]
      · simp [isNorm]

end Launch

/-- The job of a launch, if any, leaves what the launch leaves when it is performed on its own, and
the result of a norm is in the launch's slot. -/
theorem Ticket.exists_runAll_leave {limit : Nat} (positive : 0 < limit) (ticket : Ticket)
    {memory other : Memory} (same : memory.buffer = other.buffer)
    (pending : memory.norm ticket.slot = pendingNorm) :
    ∃ between after,
      Job.runAll limit (ticket.job? memory.lengths).toList memory = some between ∧
      ticket.launch.leave limit other = some after ∧
      between.buffer = after.buffer ∧ between.lengths = memory.lengths ∧
      ∀ i, between.norm i =
        if ticket.launch.isNorm ∧ i = ticket.slot then after.norm 0 else memory.norm i := by
  have alike := Memory.lengths_congr same
  have slots := Launch.accept_slot memory.lengths ticket.slot ticket.launch
  cases answer : ticket.launch.accept memory.lengths 0 with
  | error reason =>
    -- A refused norm has the result that stands in its slot before it runs.
    have jobless : ticket.job? memory.lengths = none := by
      rw [job?, Ticket.answer, slots, answer]
      rfl
    have refused : ticket.launch.passes other.lengths = false := by
      rw [Launch.passes, ← alike, answer]
      rfl
    refine ⟨memory, fresh other, by rw [jobless]; rfl, Launch.leave_of_refused refused, same,
      rfl, ?_⟩
    intro i
    split
    · rename_i own
      rw [own.2, pending]
      rfl
    · rfl
  | ok job =>
    have found : ticket.job? memory.lengths = some (job.withSlot ticket.slot) := by
      rw [job?, Ticket.answer, slots, answer]
      rfl
    have accepted : ticket.launch.accept (fresh other).lengths 0 = .ok job := by
      rw [← answer, alike]
      rfl
    obtain ⟨after, finished⟩ := Launch.exists_run accepted positive
    obtain ⟨between, ran, buffers, norms⟩ :=
      Launch.exists_run_withSlot answer (show memory.buffer = (fresh other).buffer from same)
        finished ticket.slot
    refine ⟨between, after, ?_, ?_, buffers, Job.run_lengths ran, norms⟩
    · rw [found, Option.toList_some, Job.runAll, ran]
      rfl
    · have own : ticket.launch.accept other.lengths 0 = .ok job := accepted
      rw [Launch.leave_of_accepted own]
      exact finished

namespace Scope

/-- The jobs of submissions leave what the launches leave when each is performed on its own; the
norms fill the slots from the given one on. -/
theorem exists_runAll_serial {limit : Nat} (positive : 0 < limit) (number slot : Nat)
    (submissions : List Submission) {memory other : Memory} (same : memory.buffer = other.buffer)
    (pending : ∀ i, slot ≤ i → memory.norm i = pendingNorm) :
    ∃ final last,
      Job.runAll limit ((ticketsFrom number slot submissions).filterMap
        (Ticket.job? memory.lengths)) memory = some final ∧
      Launch.serial limit (submissions.map Submission.launch) other = some (last,
        (List.range' slot ((submissions.map Submission.launch).filter Launch.isNorm).length).map
          final.norm) ∧
      final.buffer = last.buffer ∧ final.lengths = memory.lengths ∧
      ∀ i < slot, final.norm i = memory.norm i := by
  induction submissions generalizing number slot memory other with
  | nil => exact ⟨memory, other, rfl, rfl, same, rfl, fun _ _ => rfl⟩
  | cons submission rest ih =>
    obtain ⟨between, after, ran, left, buffers, lengths, norms⟩ :=
      Ticket.exists_runAll_leave positive
        ⟨number, slot, submission.stream, submission.launch⟩ same (pending slot (Nat.le_refl _))
    have norms : ∀ i, between.norm i =
        if submission.launch.isNorm ∧ i = slot then after.norm 0 else memory.norm i := norms
    -- The later submissions start with the next slot when this one has taken a slot.
    have vacant : ∀ i, (if submission.launch.isNorm then slot + 1 else slot) ≤ i →
        between.norm i = pendingNorm := by
      intro i behind
      rw [norms, if_neg, pending]
      · split at behind <;> omega
      · rintro ⟨isNorm, own⟩
        rw [if_pos isNorm] at behind
        omega
    obtain ⟨final, last, finished, again, ends, sizes, kept⟩ := ih (number + 1) _ buffers vacant
    refine ⟨final, last, ?_, ?_, ends, sizes.trans lengths, ?_⟩
    · rw [lengths, List.filterMap_eq_flatMap_toList] at finished
      rw [ticketsFrom, List.filterMap_eq_flatMap_toList, List.flatMap_cons, Job.runAll_append, ran]
      exact finished
    · rw [List.map_cons, Launch.serial_cons left again]
      by_cases isNorm : submission.launch.isNorm
      · have own : final.norm slot = after.norm 0 := by
          rw [kept slot (by simp [isNorm]), norms]
          simp [isNorm]
        simp [isNorm, List.range'_succ, own]
      · simp [isNorm]
    · intro i before
      have apart : ¬ (submission.launch.isNorm ∧ i = slot) := by omega
      rw [kept i (by split <;> omega), norms, if_neg apart]

/-- What a scope told of each launch is its verdict. -/
theorem told_judgements (lengths : String → Depth → Nat) (scope : Scope) :
    (scope.judgements lengths).map told = scope.launches.map (Launch.verdict lengths) := by
  -- The answers are listed by launch, in any slot.
  rw [judgements, List.map_map, ← map_launch_tickets, List.map_map]
  apply List.map_congr_left
  intro ticket _
  exact Launch.told_accept lengths ticket.slot ticket.launch

/-- A scope tells every launch its verdict, and it leaves the buffers and reports the norms that its
launches leave when each is performed on its own. -/
theorem exists_run_serial (scope : Scope) {engine : Engine}
    (positive : 0 < engine.settings.rowGroups) (memory : Memory) :
    ∃ report last,
      scope.run engine memory = some (report, (engine.openStreams scope.streams).2) ∧
      report.streams = (engine.openStreams scope.streams).1 ∧
      report.answers = scope.launches.map (Launch.verdict memory.lengths) ∧
      Launch.serial engine.settings.rowGroups scope.launches memory = some (last, report.norms) ∧
      report.norms.length = (scope.launches.filter Launch.isNorm).length ∧
      report.memory.buffer = last.buffer ∧ report.memory.lengths = memory.lengths := by
  -- The listed jobs end with the buffers of the serial run, and their slots hold its norms.
  obtain ⟨final, last, finished, performed, buffers, lengths, -⟩ :=
    exists_runAll_serial positive 0 0 scope.submissions
      (show (fresh memory).buffer = memory.buffer from rfl) fun _ _ => rfl
  refine ⟨_, last, run_eq_some finished, rfl, told_judgements _ _, ?_, ?_, buffers, lengths⟩
  · rw [List.range_eq_range']
    exact performed
  · rw [List.length_map, List.length_range]

end Scope

end Raster
