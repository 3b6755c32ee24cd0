import Raster.Engine
import Raster.Launch

/-!
Workflows: scopes of launches on streams.  Each stream runs its jobs in the order of submission, and
a scope ends when every stream has run dry.
-/

namespace Raster

/-- A launch offered to one of the streams of a scope. -/
structure Submission where
  stream : Nat
  launch : Launch
  deriving DecidableEq, Repr

/-- Launches in the order of submission to a number of streams. -/
structure Scope where
  streams : Nat
  submissions : List Submission
  deriving DecidableEq, Repr

/-- The answer to a submission: its job or the reason for refusing it. -/
structure Admission where
  stream : Nat
  answer : Except Refusal Job

namespace Scope

/-- The answers to submissions; norms take result slots in order, whether accepted or not. -/
def judge (lengths : String → Depth → Nat) : Nat → List Submission → List Admission
  | _, [] => []
  | slot, submission :: rest =>
    ⟨submission.stream, submission.launch.accept lengths slot⟩ ::
      judge lengths (if submission.launch.isNorm then slot + 1 else slot) rest

/-- The jobs of one stream, in the order of submission. -/
def queue (admissions : List Admission) (stream : Nat) : List Job :=
  (admissions.filter (·.stream = stream)).filterMap (·.answer.toOption)

/-- The streams of the accepted launches, in the order of submission. -/
def listed (admissions : List Admission) : List Nat :=
  (admissions.filter (·.answer.toOption.isSome)).map Admission.stream

/-- Runs the next job of each named stream in turn; a stream that has run dry does nothing. -/
def drain (limit : Nat) : List Nat → (Nat → List Job) → Memory → Option Memory
  | [], _, memory => some memory
  | stream :: rest, queues, memory =>
    match queues stream with
    | [] => drain limit rest queues memory
    -- The stream whose turn it is takes one job; what it wrote is there for the others.
    | job :: jobs => do
      let memory ← job.run limit memory
      drain limit rest (fun other => if other = stream then jobs else queues other) memory

end Scope

/-- What a scope reports. -/
structure ScopeReport where
  streams : List Nat
  answers : List (Except Refusal Unit)
  norms : List Float
  /-- The memory when every stream has run dry. -/
  memory : Memory

namespace Scope

/-- The result that a norm has before it runs. -/
def pendingNorm : Float := -Binary.double 1

/-- Runs a scope on an engine and a memory. -/
def run (scope : Scope) (engine : Engine) (memory : Memory) : Option (ScopeReport × Engine) := do
  let (streams, engine) := engine.openStreams scope.streams
  let admissions := judge memory.lengths 0 scope.submissions
  -- A refused norm keeps its slot and its pending result.
  let fresh := { memory with norm := fun _ => pendingNorm }
  let final ← drain engine.settings.rowGroups (listed admissions) (queue admissions) fresh
  let norms := (scope.submissions.filter (·.launch.isNorm)).length
  return (⟨streams, admissions.map fun admission => admission.answer.map fun _ => (),
    (List.range norms).map final.norm, final⟩, engine)

end Scope

namespace Workflow

/-- The reports of scopes run one after another on an engine, each on the memory left before. -/
def runScopes (engine : Engine) (memory : Memory) : List Scope → Option (List ScopeReport)
  | [] => some []
  | scope :: rest => do
    let (report, engine) ← scope.run engine memory
    -- What a scope wrote is there for the next one.
    let reports ← runScopes engine report.memory rest
    return report :: reports

/-- Runs scopes on a fresh engine, refused for settings that it cannot run under. -/
def run (settings : Settings) (memory : Memory) (scopes : List Scope) :
    Except Refusal (Option (List ScopeReport)) := do
  let engine ← Engine.start settings
  return runScopes engine memory scopes

end Workflow

end Raster
