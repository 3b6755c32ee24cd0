import Raster.Proofs.Launch.Order
import Raster.Workflow

/-!
Scopes in the order of their launches.  Main statements: `Scope.run_eq_some`, a scope runs the
jobs of its accepted launches one after another, `Scope.judgements_congr`, the streams of the
launches have no part in that, and `Scope.Independent.apart`, the jobs of independent launches
keep apart.
-/

namespace Raster

/-- A launch with its number among the launches of a scope and the slot for its result. -/
structure Ticket where
  number : Nat
  slot : Nat
  stream : Nat
  launch : Launch

namespace Ticket

/-- The answer to the launch, given the lengths of the buffers. -/
def answer (lengths : String → Depth → Nat) (ticket : Ticket) : Except Refusal Job :=
  ticket.launch.accept lengths ticket.slot

/-- The job of the launch, if it is accepted. -/
def job? (lengths : String → Depth → Nat) (ticket : Ticket) : Option Job :=
  (ticket.answer lengths).toOption

end Ticket

/-- What an answer tells the one who submitted a launch. -/
def told (answer : Except Refusal Job) : Except Refusal Unit :=
  answer.map fun _ => ()

namespace Scope

/-- The tickets of submissions, from a number and a slot on. -/
def ticketsFrom (number slot : Nat) : List Submission → List Ticket
  -- Launches count from the first number, and only norms use up a slot.
  | [] => []
  | submission :: rest =>
    ⟨number, slot, submission.stream, submission.launch⟩ ::
      ticketsFrom (number + 1) (if submission.launch.isNorm then slot + 1 else slot) rest

/-- The tickets of a scope, in the order of submission. -/
def tickets (scope : Scope) : List Ticket := ticketsFrom 0 0 scope.submissions

/-- The launches of a scope, in the order of submission. -/
def launches (scope : Scope) : List Launch := scope.submissions.map Submission.launch

/-- The answers to the launches of a scope. -/
def judgements (lengths : String → Depth → Nat) (scope : Scope) : List (Except Refusal Job) :=
  scope.tickets.map (Ticket.answer lengths)

/-- The jobs of the accepted launches of a scope. -/
def jobs (lengths : String → Depth → Nat) (scope : Scope) : List Job :=
  scope.tickets.filterMap (Ticket.job? lengths)

/-- The memory on which a scope begins: no norm has run. -/
def fresh (memory : Memory) : Memory := { memory with norm := fun _ => pendingNorm }

variable {lengths : String → Depth → Nat}

/-- The jobs are those that the answers give. -/
theorem jobs_eq (lengths : String → Depth → Nat) (scope : Scope) :
    scope.jobs lengths = (scope.judgements lengths).filterMap Except.toOption := by
  -- A job is what an accepted launch is answered with.
  rw [judgements, List.filterMap_map]
  rfl

/-- A scope judges its launches by their tickets. -/
theorem judge_eq (number slot : Nat) (submissions : List Submission) :
    judge lengths slot submissions = (ticketsFrom number slot submissions).map fun ticket =>
      ⟨ticket.stream, ticket.answer lengths⟩ := by
  -- The judging goes through the submissions in order, and so do the tickets.
  induction submissions generalizing number slot with
  | nil => rfl
  | cons submission rest ih =>
    rw [judge, ticketsFrom, List.map_cons, ih]
    rfl

/-- Draining the queues by the listed streams runs the accepted jobs in the order of submission. -/
theorem drain_eq_runAll (limit : Nat) (admissions : List Admission) (memory : Memory) :
    drain limit (listed admissions) (queue admissions) memory =
      Job.runAll limit (admissions.filterMap (·.answer.toOption)) memory := by
  induction admissions generalizing memory with
  | nil => rfl
  | cons admission rest ih =>
    obtain ⟨stream, answer⟩ := admission
    cases answer with
    | error reason =>
      -- A refused launch is in no queue, and its stream is not listed for it.
      have queues : queue (⟨stream, .error reason⟩ :: rest) = queue rest := by
        funext other
        by_cases own : stream = other <;> simp [queue, own, Except.toOption]
      rw [queues]
      simpa [listed, Except.toOption] using ih memory
    | ok job =>
      have first : queue (⟨stream, .ok job⟩ :: rest) stream = job :: queue rest stream := by
        simp [queue, Except.toOption]
      have queues : (fun other => if other = stream then queue rest stream
          else queue (⟨stream, .ok job⟩ :: rest) other) = queue rest := by
        funext other
        by_cases own : other = stream
        · simp [own]
        · simp [queue, own, Ne.symm own]
      have streams : listed (⟨stream, .ok job⟩ :: rest) = stream :: listed rest := by
        simp [listed, Except.toOption]
      rw [streams, drain, first]
      simp only [queues, ih, List.filterMap_cons, Except.toOption, Job.runAll]
      rfl

/-- A scope whose jobs run to their end reports its answers and the memory that they leave. -/
theorem run_eq_some {scope : Scope} {engine : Engine} {memory final : Memory}
    (finished : Job.runAll engine.settings.rowGroups (scope.jobs memory.lengths) (fresh memory) =
      some final) :
    scope.run engine memory = some
      (⟨(engine.openStreams scope.streams).1, (scope.judgements memory.lengths).map told,
        (List.range (scope.launches.filter Launch.isNorm).length).map final.norm, final⟩,
        (engine.openStreams scope.streams).2) := by
  -- The jobs that are queued are those of the accepted launches.
  have jobs : (judge memory.lengths 0 scope.submissions).filterMap (·.answer.toOption) =
      scope.jobs memory.lengths := by
    rw [judge_eq 0, List.filterMap_map]
    rfl
  -- In listed order every job is at the front of its stream, so all of them run.
  have drained : drain engine.settings.rowGroups (listed (judge memory.lengths 0 scope.submissions))
      (queue (judge memory.lengths 0 scope.submissions)) (fresh memory) = some final := by
    rw [drain_eq_runAll, jobs, finished]
  have answers : (judge memory.lengths 0 scope.submissions).map
      (fun admission => admission.answer.map fun _ => ()) =
      (scope.judgements memory.lengths).map told := by
    rw [judge_eq 0, List.map_map, judgements, List.map_map]
    rfl
  -- The report has a number for every norm, accepted or not.
  have norms : (scope.submissions.filter (·.launch.isNorm)).length =
      (scope.launches.filter Launch.isNorm).length := by
    rw [launches, List.filter_map, List.length_map]
    rfl
  show (drain engine.settings.rowGroups (listed (judge memory.lengths 0 scope.submissions))
    (queue (judge memory.lengths 0 scope.submissions)) (fresh memory)).bind _ = _
  rw [drained, Option.bind_some, answers, norms]
  rfl

/-- The answers to launches do not depend on the streams that they are submitted to. -/
theorem judgements_congr {scope other : Scope} (same : other.launches = scope.launches)
    (lengths : String → Depth → Nat) : other.judgements lengths = scope.judgements lengths := by
  -- Which stream takes a launch decides neither its number nor its slot.
  have answers : ∀ (number slot : Nat) (submissions others : List Submission),
      others.map Submission.launch = submissions.map Submission.launch →
      (ticketsFrom number slot others).map (Ticket.answer lengths) =
        (ticketsFrom number slot submissions).map (Ticket.answer lengths) := by
    intro number slot submissions
    induction submissions generalizing number slot with
    | nil =>
      intro others same
      rw [List.map_nil, List.map_eq_nil_iff] at same
      rw [same]
    | cons submission rest ih =>
      intro others same
      obtain ⟨first, later, rfl, launch, launches⟩ := List.map_eq_cons_iff.mp same
      simp only [ticketsFrom, List.map_cons, launch, ih _ _ _ launches, Ticket.answer]
  exact answers 0 0 scope.submissions other.submissions same

/-- Tickets carry the launches that they were made for. -/
theorem map_launch_ticketsFrom (number slot : Nat) (submissions : List Submission) :
    (ticketsFrom number slot submissions).map Ticket.launch =
      submissions.map Submission.launch := by
  -- A ticket adds to its launch only where it is counted.
  induction submissions generalizing number slot with
  | nil => rfl
  | cons submission rest ih => rw [ticketsFrom, List.map_cons, List.map_cons, ih]

/-- The tickets of a scope carry its launches in their order. -/
theorem map_launch_tickets (scope : Scope) : scope.tickets.map Ticket.launch = scope.launches :=
  map_launch_ticketsFrom 0 0 scope.submissions

/-- Slots are given out upwards. -/
theorem slot_le_of_mem {number slot : Nat} {submissions : List Submission} {ticket : Ticket}
    (member : ticket ∈ ticketsFrom number slot submissions) : slot ≤ ticket.slot := by
  -- Slots are counted upwards, so no later ticket has an earlier one.
  induction submissions generalizing number slot with
  | nil => cases member
  | cons submission rest ih =>
    rw [ticketsFrom, List.mem_cons] at member
    rcases member with rfl | later
    · exact Nat.le_refl slot
    · have behind := ih later
      split at behind <;> omega

/-- The slot of a norm is taken: every later ticket has a greater one. -/
theorem slots_apart (number slot : Nat) (submissions : List Submission) :
    (ticketsFrom number slot submissions).Pairwise fun first second =>
      first.launch.isNorm → first.slot < second.slot := by
  induction submissions generalizing number slot with
  | nil => exact List.Pairwise.nil
  | cons submission rest ih =>
    -- Once a norm has its slot, those behind it count from the next one on.
    rw [ticketsFrom, List.pairwise_cons]
    refine ⟨?_, ih _ _⟩
    intro later member isNorm
    have behind := slot_le_of_mem member
    rw [if_pos isNorm] at behind
    exact behind

/-- Tickets are numbered in their order. -/
theorem number_eq {number slot i : Nat} {submissions : List Submission} {ticket : Ticket}
    (found : (ticketsFrom number slot submissions)[i]? = some ticket) :
    ticket.number = number + i := by
  -- Every launch is counted, whatever it asks for.
  induction submissions generalizing number slot i with
  | nil => simp [ticketsFrom] at found
  | cons submission rest ih =>
    cases i with
    | zero =>
      simp only [ticketsFrom, List.getElem?_cons_zero, Option.some.injEq] at found
      rw [← found, Nat.add_zero]
    | succ i =>
      rw [ticketsFrom, List.getElem?_cons_succ] at found
      rw [ih found]
      omega

/-- Tickets of one number are one ticket. -/
theorem eq_of_number {scope : Scope} {ticket other : Ticket} (first : ticket ∈ scope.tickets)
    (second : other ∈ scope.tickets) (same : ticket.number = other.number) : ticket = other := by
  -- Two tickets of one number stand at one position of the list.
  obtain ⟨i, found⟩ := List.mem_iff_getElem?.mp first
  obtain ⟨j, foundToo⟩ := List.mem_iff_getElem?.mp second
  have positions : i = j := by
    have left := number_eq found
    have right := number_eq foundToo
    omega
  rw [positions, foundToo, Option.some.injEq] at found
  exact found.symm

/-- No buffer is both read and written by launches of the scope, and none is written twice. -/
structure Independent (scope : Scope) : Prop where
  -- Not even its own launch may name the buffer of a target among its sources.
  unread : ∀ first ∈ scope.launches, ∀ second ∈ scope.launches,
    ∀ target ∈ first.target?, ∀ source ∈ second.sources, target.buffer ≠ source.buffer
  once : scope.launches.Pairwise fun first second =>
    ∀ target ∈ first.target?, ∀ other ∈ second.target?, target.buffer ≠ other.buffer

/-- Whether launches are independent does not depend on their streams. -/
theorem Independent.congr {scope other : Scope} (independent : scope.Independent)
    (same : other.launches = scope.launches) : other.Independent := by
  -- Both conditions speak of the launches alone.
  constructor
  · rw [same]
    exact independent.unread
  · rw [same]
    exact independent.once

end Scope

namespace Ticket

/-- The launch of a job has been accepted. -/
theorem answer_of_job? {lengths : String → Depth → Nat} {ticket : Ticket} {job : Job}
    (given : ticket.job? lengths = some job) : ticket.answer lengths = .ok job := by
  -- A launch that is refused has no job.
  unfold job? at given
  cases answer : ticket.answer lengths with
  | error reason => simp [answer, Except.toOption] at given
  | ok own =>
    rw [answer] at given
    cases given
    rfl

/-- A launch spares another one whose buffers it does not write and whose slot is not its own. -/
theorem spares {lengths : String → Depth → Nat} {first second : Ticket} {job other : Job}
    (accepted : first.job? lengths = some job) (acceptedToo : second.job? lengths = some other)
    (unread : ∀ target ∈ first.launch.target?, ∀ source ∈ second.launch.sources,
      target.buffer ≠ source.buffer)
    (once : ∀ target ∈ first.launch.target?, ∀ again ∈ second.launch.target?,
      target.buffer ≠ again.buffer)
    (slots : first.launch.isNorm → second.launch.isNorm → first.slot ≠ second.slot) :
    job.Spares other := by
  obtain ⟨-, place⟩ := Launch.footprint (answer_of_job? accepted)
  obtain ⟨reads, otherPlace⟩ := Launch.footprint (answer_of_job? acceptedToo)
  intro written held
  rw [place] at held
  rw [otherPlace, reads]
  cases written with
  | buffer name =>
    -- A written buffer is that of a target, which is neither another target nor a source.
    obtain ⟨target, own, rfl⟩ := Launch.place?_eq_buffer_iff.mp held
    constructor
    · intro again
      obtain ⟨next, taken, same⟩ := Launch.place?_eq_buffer_iff.mp again
      exact once target own next taken same.symm
    · intro name member same
      cases same
      simp only [List.map_append, List.mem_append, List.mem_map, Option.mem_toList] at member
      rcases member with ⟨source, given, same⟩ | ⟨next, taken, same⟩
      · exact unread target own source given same.symm
      · exact once target own next taken same.symm
  | norm slot =>
    -- A norm has a slot of its own, and no job reads it.
    obtain ⟨isNorm, rfl⟩ := Launch.place?_eq_norm_iff.mp held
    constructor
    · intro again
      obtain ⟨alsoNorm, same⟩ := Launch.place?_eq_norm_iff.mp again
      exact slots isNorm alsoNorm same.symm
    · intro name _ same
      cases same

end Ticket

/-- The jobs of independent launches keep apart. -/
theorem Scope.Independent.apart {scope : Scope} (independent : scope.Independent)
    (lengths : String → Depth → Nat) : (scope.jobs lengths).Pairwise Job.Apart := by
  have launches := scope.map_launch_tickets
  have member : ∀ ticket ∈ scope.tickets, ticket.launch ∈ scope.launches := by
    intro ticket listed
    rw [← launches]
    exact List.mem_map_of_mem listed
  have once := independent.once
  rw [← launches, List.pairwise_map] at once
  -- Of two tickets the earlier one has the smaller slot when it is a norm.
  have both := (Scope.slots_apart 0 0 scope.submissions).and once
  have apart : scope.tickets.Pairwise fun first second =>
      ∀ job, first.job? lengths = some job → ∀ other, second.job? lengths = some other →
        job.Apart other := by
    apply both.imp_of_mem
    intro first second listed listedToo ordered job given other givenToo
    obtain ⟨slots, buffers⟩ := ordered
    constructor
    · refine Ticket.spares given givenToo ?_ buffers ?_
      · exact independent.unread _ (member _ listed) _ (member _ listedToo)
      · intro isNorm _ same
        have smaller := slots isNorm
        omega
    · refine Ticket.spares givenToo given ?_ ?_ ?_
      · exact independent.unread _ (member _ listedToo) _ (member _ listed)
      · intro target own next taken same
        exact buffers next taken target own same.symm
      · intro _ isNorm same
        have smaller := slots isNorm
        omega
  exact List.Pairwise.filterMap _ (fun _ _ held => held) apart

/-- Every job of a scope was accepted for the buffers as they are. -/
theorem Scope.accepted_of_mem_jobs {scope : Scope} {lengths : String → Depth → Nat} {job : Job}
    (member : job ∈ scope.jobs lengths) :
    ∃ launch slot, Launch.accept lengths slot launch = .ok job := by
  -- The jobs are those of the tickets whose launches were accepted.
  obtain ⟨ticket, -, given⟩ := List.mem_filterMap.mp member
  exact ⟨ticket.launch, ticket.slot, Ticket.answer_of_job? given⟩

end Raster
