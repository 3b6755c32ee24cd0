import Raster.Proofs.Image.Steps
import Raster.Proofs.Workflow.Interleaving
import Raster.Proofs.Workflow.Serial

/-!
Refused work leaves no trace.  Main statement: `refused_work_leaves_no_trace`, a workflow and a
sequence of operations on an image go on as if their refused parts had never been there, and
selectors and shapes alone decide what is refused.
-/

namespace Raster

namespace Scope

/-- The scope without the launches that are refused for buffers of the given lengths. -/
def kept (lengths : String → Depth → Nat) (scope : Scope) : Scope :=
  { scope with submissions := scope.submissions.filter fun submission =>
      submission.launch.passes lengths }

/-- The launches of a scope without refused ones are its accepted launches. -/
theorem launches_kept (lengths : String → Depth → Nat) (scope : Scope) :
    (scope.kept lengths).launches = scope.launches.filter (Launch.passes lengths) := by
  -- A submission is judged by its launch alone.
  rw [launches, launches, kept, List.filter_map]
  rfl

end Scope

/-- The report of a scope beside the report of the scope without its refused launches. -/
structure ScopeReport.Trims (trimmed report : ScopeReport) (lengths : String → Depth → Nat)
    (scope : Scope) : Prop where
  streams : trimmed.streams = report.streams
  buffers : trimmed.memory.buffer = report.memory.buffer
  /-- Each launch is told its verdict, which no other launch and no sample has a part in. -/
  verdicts : report.answers = scope.launches.map (Launch.verdict lengths)
  answers : trimmed.answers = report.answers.filter (·.toOption.isSome)
  /-- There is one result for each norm, and those of accepted norms stay. -/
  results : report.norms.length = (scope.launches.filter Launch.isNorm).length
  norms : trimmed.norms = (((scope.launches.filter Launch.isNorm).zip report.norms).filter
    fun entry => entry.1.passes lengths).map Prod.snd

/-- A launch is told of its acceptance exactly when it is accepted. -/
theorem Launch.isSome_verdict (lengths : String → Depth → Nat) (launch : Launch) :
    (launch.verdict lengths).toOption.isSome = launch.passes lengths := by
  -- A launch passes when it has a job.
  rw [verdict, passes]
  cases launch.accept lengths 0 <;> rfl

namespace Scope

/-- A scope and the scope without its refused launches run alike on memories with the same buffers.
-/
theorem exists_run_kept (scope : Scope) {engine : Engine}
    (positive : 0 < engine.settings.rowGroups) {memory other : Memory}
    (same : other.buffer = memory.buffer) :
    ∃ report trimmed,
      scope.run engine memory = some (report, (engine.openStreams scope.streams).2) ∧
      (scope.kept memory.lengths).run engine other =
        some (trimmed, (engine.openStreams scope.streams).2) ∧
      trimmed.Trims report memory.lengths scope ∧ report.memory.lengths = memory.lengths := by
  have alike := Memory.lengths_congr same
  obtain ⟨report, last, run, streams, verdicts, finished, results, buffers, lengths⟩ :=
    scope.exists_run_serial positive memory
  obtain ⟨trimmed, lastToo, runToo, streamsToo, verdictsToo, finishedToo, -, buffersToo, -⟩ :=
    (scope.kept memory.lengths).exists_run_serial positive other
  -- Performed one by one, the accepted launches leave the same buffers and results.
  obtain ⟨ended, again, ends⟩ := Launch.serial_filter same finished
  rw [launches_kept, again, Option.some.injEq, Prod.mk.injEq] at finishedToo
  obtain ⟨rfl, norms⟩ := finishedToo
  refine ⟨report, trimmed, run, runToo, ⟨streamsToo.trans streams.symm, ?_, verdicts, ?_, results,
    norms.symm⟩, lengths⟩
  · rw [buffersToo, ends, buffers]
  · rw [verdictsToo, verdicts, launches_kept, List.filter_map, alike]
    congr 2
    funext launch
    exact (launch.isSome_verdict memory.lengths).symm

end Scope

/-- Scopes and the scopes without their refused launches run alike on memories with the same
buffers. -/
theorem Workflow.exists_runScopes_kept (scopes : List Scope) {engine : Engine}
    (positive : 0 < engine.settings.rowGroups) {memory other : Memory}
    (same : other.buffer = memory.buffer) :
    ∃ reports trimmed, runScopes engine memory scopes = some reports ∧
      runScopes engine other (scopes.map (Scope.kept memory.lengths)) = some trimmed ∧
      reports.length = scopes.length ∧ trimmed.length = scopes.length ∧
      ∀ (i : Nat) (scope : Scope) (report short : ScopeReport), scopes[i]? = some scope →
        reports[i]? = some report → trimmed[i]? = some short →
        short.Trims report memory.lengths scope := by
  induction scopes generalizing engine memory other with
  | nil => exact ⟨[], [], rfl, rfl, rfl, rfl, fun _ _ _ _ found => absurd found (by simp)⟩
  | cons scope rest ih =>
    obtain ⟨report, short, run, runToo, trims, lengths⟩ := scope.exists_run_kept positive same
    -- The next scope finds the same engine, the same buffers and buffers of the same lengths.
    have opened : 0 < (engine.openStreams scope.streams).2.settings.rowGroups := positive
    obtain ⟨reports, trimmed, later, laterToo, count, countToo, alike⟩ := ih opened trims.buffers
    rw [lengths] at laterToo alike
    refine ⟨report :: reports, short :: trimmed, ?_, ?_, ?_, ?_, ?_⟩
    · rw [runScopes, run]
      simp only [Option.bind_eq_bind, Option.bind_some, later]
      rfl
    · rw [List.map_cons, runScopes, runToo]
      simp only [Option.bind_eq_bind, Option.bind_some, laterToo]
      rfl
    · rw [List.length_cons, List.length_cons, count]
    · rw [List.length_cons, List.length_cons, countToo]
    · intro i found foundReport foundShort atScope atReport atShort
      cases i with
      | zero =>
        cases atScope
        cases atReport
        cases atShort
        exact trims
      | succ i => exact alike i found foundReport foundShort atScope atReport atShort

/--
Refused work leaves no trace.

A workflow without its refused launches has the same streams, leaves the same buffers, gives the
other launches the same answers and the accepted norms the same results.  Whether a launch is
refused depends on its selectors, the shapes of its regions and the lengths of their buffers.  A
sequence of operations on a whole image without the refused ones answers the others alike and leaves
the same image, no operation faults, and the current image is whole after each.
-/
theorem refused_work_leaves_no_trace :
    (∀ settings memory scopes,
      (∀ reason, settings.check = .error reason →
        Workflow.run settings memory scopes = .error reason ∧
        Workflow.run settings memory (scopes.map (Scope.kept memory.lengths)) = .error reason) ∧
      (settings.check = .ok () → ∃ reports trimmed,
        Workflow.run settings memory scopes = .ok (some reports) ∧
        Workflow.run settings memory (scopes.map (Scope.kept memory.lengths)) =
          .ok (some trimmed) ∧
        reports.length = scopes.length ∧ trimmed.length = scopes.length ∧
        ∀ (i : Nat) (scope : Scope) (report short : ScopeReport), scopes[i]? = some scope →
          reports[i]? = some report → trimmed[i]? = some short →
          short.Trims report memory.lengths scope)) ∧
    (∀ (lengths others : String → Depth → Nat) (launch : Launch) (place : Region → Region),
      (∀ region ∈ launch.regions, region.Alike lengths others (place region)) →
      (launch.move place).verdict others = launch.verdict lengths) ∧
    ∀ (depth : Depth) (channels : Nat) (image : Image depth.Sample channels)
      (steps : List ImageStep), image.Whole →
      (∀ answer ∈ ImageStep.performAll image steps, ImageStep.Outcome answer) ∧
      ImageStep.performAll image (ImageStep.kept image steps) =
        (ImageStep.performAll image steps).filter ImageStep.accepted ∧
      ImageStep.current image (ImageStep.performAll image (ImageStep.kept image steps)) =
        ImageStep.current image (ImageStep.performAll image steps) ∧
      ∀ count, (ImageStep.current image
        ((ImageStep.performAll image steps).take count)).Whole := by
  refine ⟨?_, fun lengths others launch place alike => Launch.verdict_move alike, ?_⟩
  · intro settings memory scopes
    constructor
    -- Settings are judged before any scope runs.
    · intro reason refused
      simp only [Workflow.run, Engine.start, refused]
      exact ⟨rfl, rfl⟩
    -- With settings that pass, scope after scope runs and trims.
    · intro checked
      obtain ⟨reports, trimmed, run, runToo, alike⟩ :=
        Workflow.exists_runScopes_kept scopes
          (show 0 < (Engine.mk settings 0).settings.rowGroups from Settings.rowGroups_pos checked)
          (show memory.buffer = memory.buffer from rfl)
      refine ⟨reports, trimmed, ?_, ?_, alike⟩
      · simp only [Workflow.run, Engine.start, checked, ← run]
        rfl
      · simp only [Workflow.run, Engine.start, checked, ← runToo]
        rfl
  -- A chain of images goes through its steps, of which only accepted ones make images.
  · intro depth channels image steps whole
    refine ⟨fun answer => ImageStep.outcome_of_mem, ImageStep.performAll_kept image steps, ?_, ?_⟩
    · rw [ImageStep.performAll_kept, ImageStep.current_filter]
    intro count
    exact ImageStep.current_whole whole fun answer member =>
      ImageStep.outcome_of_mem (List.mem_of_mem_take member)

/-- A norm of an unknown kind, a norm of the sum, and a resize onto a buffer that is too short. -/
def refusing : Scope :=
  ⟨1, [⟨0, .norm .byte 1 3 (square "in") none⟩, ⟨0, .norm .byte 1 2 (square "in") none⟩,
    ⟨0, .resize .byte 1 .linear (square "in") ⟨"out", 0, 3, 3, none⟩⟩]⟩

/-- The norm of the sum alone. -/
def refusingKept : Scope := ⟨1, [⟨0, .norm .byte 1 2 (square "in") none⟩]⟩

/-- An image of two by one bytes. -/
def twoByteImage : Image Depth.byte.Sample 1 := ⟨2, 1, #[3, 4]⟩

/-- The accepted norm gives one result with the refused launches around it and without them, and
an image stays whole when it is to be resized to nothing. -/
theorem refused_work_leaves_no_trace_refusing :
    (∃ reports trimmed,
      Workflow.run .standard fourBytes [refusing] = .ok (some reports) ∧
      Workflow.run .standard fourBytes [refusingKept] = .ok (some trimmed) ∧
      ∃ report short, reports = [report] ∧ trimmed = [short] ∧
        short.answers = report.answers.filter (·.toOption.isSome) ∧
        short.norms = report.norms[1]?.toList) ∧
    (Launch.norm .byte 1 2 (square "in") none).verdict fourBytes.lengths =
      (Launch.norm .byte 1 2 (square "other") none).verdict fourBytes.lengths ∧
    twoByteImage.Whole ∧
    (ImageStep.current twoByteImage
      ((ImageStep.performAll twoByteImage [.resized 0 5 .linear, .norm 1]).take 1)).Whole := by
  obtain ⟨workflows, verdicts, images⟩ := refused_work_leaves_no_trace
  have whole : twoByteImage.Whole := rfl
  refine ⟨?_, ?_, whole, (images .byte 1 twoByteImage _ whole).2.2.2 1⟩
  · -- The refused launch has its place in the answers, and the report without it has one answer
    -- less.
    obtain ⟨reports, trimmed, run, runToo, count, countToo, alike⟩ :=
      (workflows .standard fourBytes [refusing]).2 rfl
    have kept : [refusing].map (Scope.kept fourBytes.lengths) = [refusingKept] := rfl
    obtain ⟨report, rfl⟩ := List.length_eq_one_iff.mp count
    obtain ⟨short, rfl⟩ := List.length_eq_one_iff.mp countToo
    have trims := alike 0 refusing report short rfl rfl rfl
    obtain ⟨first, second, norms⟩ := List.length_eq_two.mp trims.results
    refine ⟨_, _, run, kept ▸ runToo, report, short, rfl, rfl, trims.answers, ?_⟩
    rw [trims.norms, norms]
    rfl
  · -- Only the name of the buffer differs between the launches.
    exact (verdicts fourBytes.lengths fourBytes.lengths
      (.norm .byte 1 2 (square "other") none) (fun region => { region with buffer := "in" })
      fun region _ => ⟨rfl, rfl, fun _ => rfl⟩)

end Raster
