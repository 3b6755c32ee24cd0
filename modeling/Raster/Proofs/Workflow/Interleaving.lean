import Mathlib.Logic.Function.Basic
import Mathlib.Logic.Relation
import Raster.Proofs.Workflow.Listed

/-!
Streams that advance on their own.  Each stream submits its launches and runs its accepted jobs in
order, and in every other respect the streams advance in any order.  Main statement:
`interleavings_agree`, when the launches of a scope are independent, all of these runs end with the
answers and the memory of the listed order.
-/

namespace Raster

/-- The entries of a list, told apart by their streams and shown by what they carry. -/
def Splits {α β : Type} (lines : Nat → List β) (stream : α → Nat) (carried : α → β)
    (entries : List α) : Prop :=
  ∀ line, lines line = (entries.filter (stream · = line)).map carried

namespace Splits

variable {α β : Type} {lines : Nat → List β} {stream : α → Nat} {carried : α → β}
variable {entries : List α}

/-- The first entry of a line is taken out of the list, and the others keep their order. -/
theorem pop (splits : Splits lines stream carried entries) {line : Nat} {first : β} {rest : List β}
    (next : lines line = first :: rest) :
    ∃ before entry after, entries = before ++ entry :: after ∧ stream entry = line ∧
      carried entry = first ∧
      Splits (Function.update lines line rest) stream carried (before ++ after) := by
  -- What the line shows first is carried by the first entry of its stream.
  have own := splits line
  rw [next] at own
  obtain ⟨entry, later, filtered, shown, others⟩ := List.map_eq_cons_iff.mp own.symm
  obtain ⟨before, after, rfl, skipped, inLine, kept⟩ := List.filter_eq_cons_iff.mp filtered
  simp only [decide_eq_true_eq] at skipped inLine
  refine ⟨before, entry, after, rfl, inLine, shown, ?_⟩
  intro other
  by_cases same : other = line
  · -- No entry before the first one of the line belongs to it.
    subst same
    have none_before : before.filter (stream · = other) = [] := by
      simpa using skipped
    rw [Function.update_self, List.filter_append, none_before, List.nil_append, kept, others]
  · -- The entry that is taken out does not belong to any other line.
    have apart : stream entry ≠ other := by
      intro claimed
      exact same (claimed.symm.trans inLine)
    rw [Function.update_of_ne same, splits other, List.filter_append, List.filter_append,
      List.filter_cons_of_neg (by simpa using apart)]

/-- An entry that joins the end of its line joins the end of the list. -/
theorem push (splits : Splits lines stream carried entries) (joining : List α) {line : Nat}
    (inLine : ∀ entry ∈ joining, stream entry = line) :
    Splits (Function.update lines line (lines line ++ joining.map carried)) stream carried
      (entries ++ joining) := by
  -- Entries that join one line leave the other lines as they were.
  intro other
  rw [List.filter_append, List.map_append]
  -- In the line that is joined all of the new entries come last.
  by_cases same : other = line
  · subst same
    have all : joining.filter (stream · = other) = joining := by
      rw [List.filter_eq_self]
      intro entry member
      simpa using inLine entry member
    rw [Function.update_self, all, splits other]
  -- In any other line none of the new entries appears.
  · have none_joins : joining.filter (stream · = other) = [] := by
      rw [List.filter_eq_nil_iff]
      intro entry member
      simpa [inLine entry member] using Ne.symm same
    rw [Function.update_of_ne same, none_joins, List.map_nil, List.append_nil, splits other]

/-- The list is empty when every line is. -/
theorem eq_nil (splits : Splits lines stream carried entries) (empty : ∀ line, lines line = []) :
    entries = [] := by
  -- An entry would stand in the line of its own stream.
  cases entries with
  | nil => rfl
  | cons entry rest =>
    have own := splits (stream entry)
    rw [empty] at own
    simp at own

/-- While the list has entries, the line of its first entry has one. -/
theorem exists_next (splits : Splits lines stream carried entries) (busy : entries ≠ []) :
    ∃ line first rest, lines line = first :: rest := by
  -- The first entry is the first of its line.
  cases entries with
  | nil => exact absurd rfl busy
  | cons entry rest =>
    refine ⟨stream entry, carried entry, (rest.filter (stream · = stream entry)).map carried, ?_⟩
    rw [splits, List.filter_cons_of_pos (by simp), List.map_cons]

end Splits

/-- An entry that is taken out of a list takes along what the list gives for it. -/
theorem perm_filterMap_middle {α β : Type} (give : α → Option β) (before : List α) (entry : α)
    (after : List α) :
    ((give entry).toList ++ (before ++ after).filterMap give).Perm
      ((before ++ entry :: after).filterMap give) := by
  -- Moved to the front, the entry gives its job first, if it has one.
  have first : (entry :: (before ++ after)).filterMap give =
      (give entry).toList ++ (before ++ after).filterMap give := by
    cases given : give entry <;> simp [given]
  rw [← first]
  exact List.perm_middle.symm.filterMap give

/-- How far the streams of a scope have come. -/
structure Progress where
  /-- What each stream has still to submit, in order. -/
  waiting : Nat → List Ticket
  /-- The accepted jobs that each stream has still to run, in order. -/
  queued : Nat → List Job
  /-- The answers given so far, by the number of the launch. -/
  answers : Nat → Option (Except Refusal Unit)
  memory : Memory

namespace Progress

/-- No stream has submitted anything. -/
def start (scope : Scope) (memory : Memory) : Progress :=
  ⟨fun line => scope.tickets.filter (·.stream = line), fun _ => [], fun _ => none,
    Scope.fresh memory⟩

/-- A stream submits its next launch: it is answered at once, and its job, if any, is queued. -/
def submit (now : Progress) (line : Nat) (ticket : Ticket) (rest : List Ticket) : Progress :=
  -- The launch is judged by the lengths that the memory has now.
  let answer := ticket.answer now.memory.lengths
  { now with
    waiting := Function.update now.waiting line rest
    queued := Function.update now.queued line (now.queued line ++ answer.toOption.toList)
    answers := Function.update now.answers ticket.number (some (told answer)) }

/-- A stream has run its next job. -/
def advance (now : Progress) (line : Nat) (rest : List Job) (after : Memory) : Progress :=
  -- Only the memory and the line of the job have changed.
  { now with
    queued := Function.update now.queued line rest
    memory := after }

/-- One of the streams submits its next launch or runs its next job. -/
inductive Step (limit : Nat) : Progress → Progress → Prop where
  -- Any stream may go next, either with a launch or with the job that it has waited with longest.
  | submit {now : Progress} {line : Nat} {ticket : Ticket} {rest : List Ticket}
      (next : now.waiting line = ticket :: rest) : Step limit now (now.submit line ticket rest)
  | run {now : Progress} {line : Nat} {job : Job} {rest : List Job} {after : Memory}
      (next : now.queued line = job :: rest) (finished : job.run limit now.memory = some after) :
      Step limit now (now.advance line rest after)

/-- The streams reach one state from another, each in its own order. -/
def Reaches (limit : Nat) : Progress → Progress → Prop :=
  Relation.ReflTransGen (Step limit)

/-- Every stream has submitted all its launches and run all its jobs. -/
def Finished (now : Progress) : Prop :=
  ∀ line, now.waiting line = [] ∧ now.queued line = []

/-- What holds on the way: tickets wait or have been answered, and the jobs of a scope wait with
their tickets, are pending, or have run in some order. -/
structure Along (limit : Nat) (scope : Scope) (memory : Memory) (now : Progress)
    (unjudged : List Ticket) (pending : List (Nat × Job)) (past : List Job) : Prop where
  -- The lines hold what is still to be judged and what is still to be run.
  waiting : Splits now.waiting Ticket.stream id unjudged
  queued : Splits now.queued Prod.fst Prod.snd pending
  lengths : now.memory.lengths = memory.lengths
  -- What has run already led here from the start, in the order in which it ran.
  ran : Job.runAll limit past (Scope.fresh memory) = some now.memory
  -- Nothing is lost: what ran, what waits and what is still to be judged are the listed jobs.
  jobs : (past ++ (pending.map Prod.snd ++ unjudged.filterMap (Ticket.job? memory.lengths))).Perm
    (scope.jobs memory.lengths)
  listed : ∀ ticket ∈ unjudged, ticket ∈ scope.tickets
  -- Every launch that has been judged has been told its answer.
  answered : ∀ ticket ∈ scope.tickets, ticket ∈ unjudged ∨
    now.answers ticket.number = some (told (ticket.answer memory.lengths))

variable {limit : Nat} {scope : Scope} {memory : Memory} {now : Progress}
variable {unjudged : List Ticket} {pending : List (Nat × Job)} {past : List Job}

/-- Nothing has been judged or run at the start. -/
theorem along_start (limit : Nat) (scope : Scope) (memory : Memory) :
    Along limit scope memory (start scope memory) scope.tickets [] [] where
  waiting line := by simp [start]
  queued line := by simp [start]
  lengths := rfl
  ran := rfl
  jobs := List.Perm.refl _
  listed ticket member := member
  answered ticket member := .inl member

/-- Submitting a launch answers it as the listed order does and makes its job pending. -/
theorem Along.submit (along : Along limit scope memory now unjudged pending past) {line : Nat}
    {ticket : Ticket} {rest : List Ticket} (next : now.waiting line = ticket :: rest) :
    ∃ later more, Along limit scope memory (now.submit line ticket rest) later more past ∧
      2 * later.length + more.length < 2 * unjudged.length + pending.length := by
  obtain ⟨before, entry, after, rfl, inLine, same, waiting⟩ := along.waiting.pop next
  rw [id_eq] at same
  subst same
  -- The launch is judged by lengths that no job has changed, so its answer is the listed one.
  have lengths := along.lengths
  have given : now.queued line ++ (entry.answer now.memory.lengths).toOption.toList =
      now.queued line ++ ((entry.job? memory.lengths).toList.map (line, ·)).map Prod.snd := by
    simp [lengths, Ticket.job?]
  refine ⟨before ++ after, pending ++ (entry.job? memory.lengths).toList.map (line, ·),
    ⟨waiting, ?_, lengths, along.ran, ?_, ?_, ?_⟩, ?_⟩
  · -- The job, if there is one, joins the end of its stream and of all that is pending.
    show Splits (Function.update now.queued line _) _ _ _
    rw [given]
    exact along.queued.push _ (by simp)
  · -- The job moves from its place among the waiting tickets to the end of the pending jobs.
    refine List.Perm.trans (List.Perm.append_left past ?_) along.jobs
    rw [List.map_append, List.map_map, List.append_assoc]
    apply List.Perm.append_left
    simpa [Function.comp_def] using
      perm_filterMap_middle (Ticket.job? memory.lengths) before entry after
  · intro other member
    apply along.listed
    rw [List.mem_append] at member ⊢
    exact member.imp_right (List.mem_cons_of_mem entry)
  · intro other member
    -- The answer is stored under the number of the launch, which no other launch has.
    have own : entry ∈ scope.tickets := along.listed entry (by simp)
    show _ ∨ Function.update now.answers entry.number _ other.number = _
    by_cases same : other.number = entry.number
    · right
      rw [Scope.eq_of_number member own same, Function.update_self, lengths]
    · rw [Function.update_of_ne same]
      refine (along.answered other member).imp_left ?_
      intro waits
      rw [List.mem_append, List.mem_cons] at waits
      rcases waits with earlier | rfl | later
      · exact List.mem_append_left after earlier
      · exact absurd rfl same
      · exact List.mem_append_right before later
  · -- A waiting launch counts twice, so that the job it leaves may count once.
    have short : (entry.job? memory.lengths).toList.length ≤ 1 := by
      cases entry.job? memory.lengths <;> simp
    simp only [List.length_append, List.length_map, List.length_cons]
    omega

/-- Running the next job of a stream takes it from the pending jobs to those that have run. -/
theorem Along.advance (along : Along limit scope memory now unjudged pending past) {line : Nat}
    {job : Job} {rest : List Job} {after : Memory} (next : now.queued line = job :: rest)
    (finished : job.run limit now.memory = some after) :
    ∃ fewer, Along limit scope memory (now.advance line rest after) unjudged fewer
        (past ++ [job]) ∧
      fewer.length < pending.length := by
  obtain ⟨before, entry, later, rfl, inLine, rfl, queued⟩ := along.queued.pop next
  refine ⟨before ++ later, ?_, by simp⟩
  refine ⟨along.waiting, queued, ?_, ?_, ?_, along.listed, along.answered⟩
  · -- A job writes samples and never changes how many there are.
    show after.lengths = memory.lengths
    rw [Job.run_lengths finished, along.lengths]
  · -- What ran before led to the present memory, from which the job has now run.
    rw [Job.runAll_append, along.ran, Option.bind_some]
    simp only [Job.runAll, finished, Option.bind_some, Progress.advance]
  · -- The job moves from its place among the pending jobs to the end of those that have run.
    have jobs := along.jobs
    rw [List.map_append, List.map_cons] at jobs
    refine List.Perm.trans ?_ jobs
    rw [List.append_assoc, List.map_append, List.append_assoc, List.append_assoc]
    apply List.Perm.append_left
    rw [List.singleton_append, List.cons_append]
    exact List.perm_middle.symm

/-- Whatever state the streams reach lies on the way. -/
theorem along_of_reaches (reached : Reaches limit (start scope memory) now) :
    ∃ unjudged pending past, Along limit scope memory now unjudged pending past := by
  -- The lists are followed from the start, step by step.
  induction reached with
  | refl => exact ⟨_, _, _, along_start limit scope memory⟩
  | tail _ step ih =>
    obtain ⟨unjudged, pending, past, along⟩ := ih
    cases step with
    | submit next =>
      obtain ⟨later, more, further, -⟩ := along.submit next
      exact ⟨later, more, past, further⟩
    | run next finished =>
      obtain ⟨fewer, further, -⟩ := along.advance next finished
      exact ⟨unjudged, fewer, _, further⟩

/-- While a launch waits or a job is pending, some stream can take a step that leaves less to do. -/
theorem Along.exists_step (along : Along limit scope memory now unjudged pending past)
    (positive : 0 < limit) (busy : ¬ (unjudged = [] ∧ pending = [])) :
    ∃ next later more ran, Step limit now next ∧ Along limit scope memory next later more ran ∧
      2 * later.length + more.length < 2 * unjudged.length + pending.length := by
  by_cases judged : unjudged = []
  · -- Everything is submitted, so the next job of some stream runs; it was accepted.
    have left : pending ≠ [] := by
      intro empty
      exact busy ⟨judged, empty⟩
    obtain ⟨line, job, rest, next⟩ := along.queued.exists_next left
    obtain ⟨before, entry, after, rfl, -, rfl, -⟩ := along.queued.pop next
    have member : entry.2 ∈ scope.jobs memory.lengths := by
      apply along.jobs.subset
      simp
    obtain ⟨launch, slot, accepted⟩ := Scope.accepted_of_mem_jobs member
    rw [← along.lengths] at accepted
    obtain ⟨reached, finished⟩ := launch.exists_run accepted positive
    obtain ⟨fewer, further, less⟩ := along.advance next finished
    exact ⟨_, unjudged, fewer, _, .run next finished, further, by omega⟩
  · -- A launch that waits can be submitted whatever else is pending.
    obtain ⟨line, ticket, rest, next⟩ := along.waiting.exists_next judged
    obtain ⟨later, more, further, less⟩ := along.submit next
    exact ⟨_, later, more, past, .submit next, further, less⟩

/-- From every state on the way the streams can go on to the end. -/
theorem Along.exists_finished (along : Along limit scope memory now unjudged pending past)
    (positive : 0 < limit) : ∃ last, Reaches limit now last ∧ last.Finished := by
  -- Every step leaves less to submit and to run.
  generalize left : 2 * unjudged.length + pending.length = count
  induction count using Nat.strong_induction_on generalizing now unjudged pending past with
  | _ count ih =>
    by_cases finished : unjudged = [] ∧ pending = []
    · -- With both lists empty no line holds anything.
      obtain ⟨rfl, rfl⟩ := finished
      refine ⟨now, Relation.ReflTransGen.refl, ?_⟩
      intro line
      rw [along.waiting line, along.queued line]
      exact ⟨rfl, rfl⟩
    · obtain ⟨next, later, more, ran, step, further, less⟩ := along.exists_step positive finished
      obtain ⟨last, reached, ended⟩ := ih _ (by omega) further rfl
      exact ⟨last, Relation.ReflTransGen.head step reached, ended⟩

/-- When all streams have finished, all launches have their answers and the jobs have run in an
order that gives what the listed order gives. -/
theorem Along.agree (along : Along limit scope memory now unjudged pending past)
    (independent : scope.Independent) (finished : now.Finished) {final : Memory}
    (listed : Job.runAll limit (scope.jobs memory.lengths) (Scope.fresh memory) = some final) :
    now.memory = final ∧ ∀ ticket ∈ scope.tickets,
      now.answers ticket.number = some (told (ticket.answer memory.lengths)) := by
  -- Nothing waits in any line, so everything listed has been judged and run.
  have none_waits := along.waiting.eq_nil fun line => (finished line).1
  have none_pends := along.queued.eq_nil fun line => (finished line).2
  subst none_waits none_pends
  constructor
  · -- The same jobs ran in another order, and independent jobs may be exchanged.
    have perm := along.jobs.symm
    rw [List.map_nil, List.filterMap_nil, List.append_nil, List.append_nil] at perm
    have same := Job.runAll_perm limit perm (independent.apart memory.lengths) (Scope.fresh memory)
    rw [listed, along.ran, Option.some.injEq] at same
    exact same.symm
  · -- No ticket is left to be judged, so each has been told its answer.
    intro ticket member
    exact (along.answered ticket member).resolve_left (List.not_mem_nil)

end Progress

/-- Settings that are not refused have row groups. -/
theorem Settings.rowGroups_pos {settings : Settings} (checked : settings.check = .ok ()) :
    0 < settings.rowGroups := by
  -- Settings without groups are refused.
  apply Nat.pos_of_ne_zero
  intro idle
  simp only [Settings.check, idle, if_true] at checked
  split at checked <;> cases checked

/--
The order in which streams advance does not matter.

When no buffer is both read and written by the launches of a scope and none is written twice, the
streams can always go on to the end, and however they do, every launch is answered as in the
listed order and the buffers and the norms are left as in the listed order.  The same holds for
every distribution of the launches over streams.
-/
theorem interleavings_agree {scope : Scope} (independent : scope.Independent) {engine : Engine}
    (checked : engine.settings.check = .ok ()) (memory : Memory) :
    ∃ report opened, scope.run engine memory = some (report, opened) ∧
      ∀ other : Scope, other.launches = scope.launches →
        (∃ again reopened, other.run engine memory = some (again, reopened) ∧
          again.answers = report.answers ∧ again.norms = report.norms ∧
          again.memory = report.memory) ∧
        ∀ now, Progress.Reaches engine.settings.rowGroups (Progress.start other memory) now →
          (∃ last, Progress.Reaches engine.settings.rowGroups now last ∧ last.Finished) ∧
          (now.Finished →
            (∀ number < scope.launches.length, now.answers number = report.answers[number]?) ∧
            now.memory = report.memory ∧
            (List.range report.norms.length).map now.memory.norm = report.norms) := by
  have positive := Settings.rowGroups_pos checked
  -- The accepted jobs run to their end in the listed order, which is the same for all streams.
  have accepted : ∀ job ∈ scope.jobs memory.lengths, ∃ launch slot,
      Launch.accept (Scope.fresh memory).lengths slot launch = .ok job := by
    intro job member
    exact Scope.accepted_of_mem_jobs member
  obtain ⟨final, finished, -⟩ := Launch.exists_runAll positive accepted
  refine ⟨_, _, Scope.run_eq_some finished, ?_⟩
  intro other same
  -- The other scope has the same launches in the same places, so it has the same jobs.
  have judgements := Scope.judgements_congr same memory.lengths
  have listed := finished
  rw [Scope.jobs_eq, ← judgements, ← Scope.jobs_eq] at listed
  refine ⟨⟨_, _, Scope.run_eq_some listed, by rw [judgements], by rw [same], rfl⟩, ?_⟩
  intro now reached
  obtain ⟨unjudged, pending, past, along⟩ := Progress.along_of_reaches reached
  refine ⟨along.exists_finished positive, ?_⟩
  intro ended
  obtain ⟨memories, answers⟩ := along.agree (independent.congr same) ended listed
  refine ⟨?_, memories, ?_⟩
  · -- The launch of a number has the ticket of that number.
    intro number inScope
    rw [← same, ← Scope.map_launch_tickets, List.length_map] at inScope
    have found := List.getElem?_eq_getElem inScope
    have numbered := answers _ (List.getElem_mem inScope)
    rw [Scope.number_eq found, Nat.zero_add] at numbered
    rw [numbered, ← judgements, Scope.judgements, List.getElem?_map, List.getElem?_map, found]
    rfl
  · rw [memories, List.length_map, List.length_range]

/-- Every buffer holds the same four bytes. -/
def fourBytes : Memory := ⟨fun _ => ⟨.byte, #[1, 2, 3, 4]⟩, fun _ => 0⟩

/-- A region of two by two bytes in the named buffer. -/
def square (buffer : String) : Region := ⟨buffer, 0, 2, 2, none⟩

/-- A stream resizes, another one takes two norms, the second of which is refused for its code. -/
def twoStreams : Scope :=
  ⟨2, [⟨0, .resize .byte 1 .linear (square "in") (square "out")⟩,
    ⟨1, .norm .byte 1 2 (square "in") none⟩, ⟨0, .fence⟩,
    ⟨1, .norm .byte 1 3 (square "in") (some (square "mask"))⟩]⟩

/-- The same launches on one stream. -/
def oneStream : Scope := ⟨1, twoStreams.submissions.map fun submission => ⟨0, submission.launch⟩⟩

/-- The launches on two streams are independent. -/
theorem twoStreams_independent : twoStreams.Independent := by
  constructor
  · decide
  · decide

/-- The launches on two streams go on to the end, which is that of the launches on one stream. -/
theorem interleavings_agree_twoStreams :
    ∃ report opened, twoStreams.run ⟨.standard, 0⟩ fourBytes = some (report, opened) ∧
      (∃ again reopened, oneStream.run ⟨.standard, 0⟩ fourBytes = some (again, reopened) ∧
        again.memory = report.memory) ∧
      ∃ last, Progress.Reaches 256 (Progress.start twoStreams fourBytes) last ∧ last.Finished ∧
        last.answers 3 = report.answers[3]? ∧ last.memory = report.memory := by
  have checked : (Engine.mk Settings.standard 0).settings.check = .ok () := rfl
  obtain ⟨report, opened, run, others⟩ :=
    interleavings_agree twoStreams_independent checked fourBytes
  refine ⟨report, opened, run, ?_, ?_⟩
  · -- The second launch may go into the first stream as well.
    obtain ⟨⟨again, reopened, rerun, -, -, same⟩, -⟩ := others oneStream rfl
    exact ⟨again, reopened, rerun, same⟩
  · -- From the start the two streams can go on, and wherever they end the answers are the same.
    obtain ⟨-, reached⟩ := others twoStreams rfl
    obtain ⟨⟨last, further, ended⟩, -⟩ := reached _ Relation.ReflTransGen.refl
    obtain ⟨answers, same, -⟩ := (reached last further).2 ended
    exact ⟨last, further, ended, answers 3 (by decide), same⟩

end Raster
