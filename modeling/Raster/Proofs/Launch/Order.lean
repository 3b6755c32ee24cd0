import Raster.Proofs.Launch.Visible

/-!
Jobs one after another.  Main statements: `Job.runAll_perm`, jobs that keep out of each other's way
run in any order, `Launch.exists_run`, the job of an accepted launch runs to its end, and
`Launch.exists_runAll`, so do the jobs of several.
-/

namespace Raster

namespace Job

/-- Runs jobs one after another. -/
def runAll (limit : Nat) : List Job → Memory → Option Memory
  | [], memory => some memory
  | job :: rest, memory => (job.run limit memory).bind (runAll limit rest)

/-- Jobs behind other jobs run on what those leave. -/
theorem runAll_append (limit : Nat) (jobs later : List Job) (memory : Memory) :
    runAll limit (jobs ++ later) memory =
      (runAll limit jobs memory).bind (runAll limit later) := by
  -- Whatever the first job leaves, the others go on from there.
  induction jobs generalizing memory with
  | nil => rfl
  | cons job rest ih =>
    rw [List.cons_append, runAll, runAll, Option.bind_assoc]
    congr 1
    funext after
    exact ih after

/-- What the first job writes the second one neither reads nor writes. -/
def Spares (first second : Job) : Prop :=
  ∀ place, first.place? = some place →
    second.place? ≠ some place ∧ ∀ name ∈ second.reads, place ≠ .buffer name

/-- Neither of two jobs writes what the other one reads or writes. -/
structure Apart (first second : Job) : Prop where
  left : first.Spares second
  right : second.Spares first

variable {first second : Job}

theorem Apart.symm (apart : first.Apart second) : second.Apart first :=
  ⟨apart.right, apart.left⟩

/-- A job that is spared by another finds in the buffers that it reads what the other found there.
-/
theorem Spares.buffer_take (spares : first.Spares second) (memory source : Memory) {name : String}
    (read : name ∈ second.reads) :
    memory.buffer name = (memory.take source first.place?).buffer name := by
  -- A buffer that is read is none that the other job writes.
  rw [Memory.buffer_take, if_neg]
  intro written
  exact (spares _ written).2 name read rfl

/-- A job that is spared by another writes behind it what it would have written in its place. -/
theorem Spares.bind_run (spares : first.Spares second) (limit : Nat) (memory : Memory) :
    (first.run limit memory).bind (second.run limit) =
      (first.run limit memory).bind fun left => (second.run limit memory).map fun right =>
        (memory.take left first.place?).take right second.place? := by
  cases finished : first.run limit memory with
  | none => rfl
  | some left =>
    have found : second.run limit (memory.take left first.place?) =
        (second.run limit memory).map fun right =>
          (memory.take left first.place?).take right second.place? :=
      second.run_congr limit fun _ read => spares.buffer_take memory left read
    -- The first job leaves what it found, save for its own place.
    rw [← eq_take_of_run finished] at found
    rw [Option.bind_some, Option.bind_some, found, ← eq_take_of_run finished]

/-- Jobs that keep apart can be exchanged. -/
theorem run_comm (apart : first.Apart second) (limit : Nat) (memory : Memory) :
    (first.run limit memory).bind (second.run limit) =
      (second.run limit memory).bind (first.run limit) := by
  rw [apart.left.bind_run, apart.right.bind_run]
  -- Both orders run both jobs on the memory as it was, and take over different places.
  cases first.run limit memory with
  | none => cases second.run limit memory <;> rfl
  | some left =>
    cases second.run limit memory with
    | none => rfl
    | some right =>
      rw [Option.bind_some, Option.bind_some, Option.map_some, Option.map_some,
        Memory.take_comm]
      intro place written
      exact (apart.left place written).1

/-- Jobs that keep apart from each other run in any order. -/
theorem runAll_perm (limit : Nat) {jobs others : List Job} (perm : jobs.Perm others)
    (apart : jobs.Pairwise Apart) (memory : Memory) :
    runAll limit jobs memory = runAll limit others memory := by
  -- A permutation is made of exchanges of neighbours, which commute when they are apart.
  induction perm generalizing memory with
  | nil => rfl
  | cons job _ ih =>
    rw [runAll, runAll]
    congr 1
    funext after
    exact ih (List.pairwise_cons.mp apart).2 after
  | swap first second rest =>
    have exchange := run_comm ((List.pairwise_cons.mp apart).1 first (by simp)) limit memory
    simp only [runAll]
    rw [← Option.bind_assoc, ← Option.bind_assoc, exchange]
  | trans left _ ihLeft ihRight =>
    rw [ihLeft apart memory]
    -- Being apart does not depend on the order.
    apply ihRight
    exact (left.pairwise_iff Apart.symm).mp apart

end Job

/-- The job of an accepted launch runs to its end. -/
theorem Launch.exists_run {launch : Launch} {memory : Memory} {slot limit : Nat} {job : Job}
    (accepted : launch.accept memory.lengths slot = .ok job) (positive : 0 < limit) :
    ∃ after, job.run limit memory = some after := by
  -- Kernels that write run on any samples; a norm asks for a mask of the image's extent.
  have written : ∀ depth channels source target, launch.Writes depth channels source target →
      ∃ after, job.run limit memory = some after := by
    intro depth channels source target writes
    obtain ⟨writer, rfl, first, second, passed⟩ := writes.exists_writer accepted
    obtain ⟨after, finished, -⟩ := writer.exists_run_job first second passed limit
    exact ⟨after, finished⟩
  cases launch with
  | resize depth channels mode source target =>
    exact written depth channels source target (.resize mode)
  | boxFilter depth channels request time source target =>
    exact written depth channels source target (.boxFilter request time)
  | norm depth channels code source mask =>
    obtain ⟨kind, rfl, first, supported, masked⟩ := exists_norm_job accepted
    exact Job.exists_run_norm positive first (fun region held => (masked region held).1) supported
      fun region held => (masked region held).2
  | fence =>
    cases accepted
    exact ⟨memory, rfl⟩

/-- The jobs of accepted launches run to their end and leave the lengths of the buffers as they
are. -/
theorem Launch.exists_runAll {limit : Nat} (positive : 0 < limit) {jobs : List Job}
    {memory : Memory} (accepted : ∀ job ∈ jobs, ∃ launch slot,
      Launch.accept memory.lengths slot launch = .ok job) :
    ∃ after, Job.runAll limit jobs memory = some after ∧ after.lengths = memory.lengths := by
  induction jobs generalizing memory with
  | nil => exact ⟨memory, rfl, rfl⟩
  | cons job rest ih =>
    obtain ⟨launch, slot, judgement⟩ := accepted job (by simp)
    obtain ⟨between, finished⟩ := launch.exists_run judgement positive
    -- The next jobs were accepted for the lengths that the first one has left.
    have lengths := Job.run_lengths finished
    rw [← lengths] at accepted
    obtain ⟨after, run, same⟩ := ih fun later member => accepted later (by simp [member])
    refine ⟨after, ?_, ?_⟩
    · rw [Job.runAll, finished, Option.bind_some, run]
    · rw [same, lengths]

end Raster
