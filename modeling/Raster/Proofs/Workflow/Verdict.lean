import Raster.Proofs.Workflow.Listed

/-!
What decides about a launch.  Main statements: `Launch.accept_slot`, the slot for a result only
names the place of the result, and `Launch.verdict_move`, a verdict depends on the selectors of a
launch and on the shapes and lengths that its regions have, wherever these lie.
-/

namespace Raster

/-- Changing the job that judgements give at the end changes none of the judgements. -/
theorem map_judged {α β : Type} (first : Except Refusal α) (rest : α → Except Refusal Job)
    (change : Job → β) :
    (first >>= rest).map change = first >>= fun given => (rest given).map change := by
  cases first <;> rfl

/-- The job with its result in another slot, if it has a result. -/
def Job.withSlot (slot : Nat) : Job → Job
  | .norm depth channels kind source mask _ => .norm depth channels kind source mask slot
  | job => job

/-- Two regions of one shape, behind which their buffers go on for one length. -/
structure Region.Alike (lengths others : String → Depth → Nat) (region other : Region) : Prop where
  -- The name of the buffer and the offset into it may both differ.
  extent : other.extent = region.extent
  stride : other.stride = region.stride
  length : ∀ depth, others other.buffer depth - other.offset =
    lengths region.buffer depth - region.offset

/-- Regions that are alike are judged alike. -/
theorem Region.Alike.check_eq {lengths others : String → Depth → Nat} {region other : Region}
    (alike : region.Alike lengths others other) (depth : Depth) (channels : Nat) :
    other.check others depth channels = region.check lengths depth channels := by
  -- The judgement sees the layout and the samples behind the offset, and these are alike.
  have height : other.height = region.height := congrArg Extent.height alike.extent
  have width : other.width = region.width := congrArg Extent.width alike.extent
  simp only [check, layout, height, width, alike.stride, alike.length]

namespace Launch

/-- The regions that a launch names. -/
def regions (launch : Launch) : List Region := launch.sources ++ launch.target?.toList

/-- The launch on other regions. -/
def move (place : Region → Region) : Launch → Launch
  -- Only places move; the kernel, its selectors and its channels stay.
  | .resize depth channels mode source target =>
    .resize depth channels mode (place source) (place target)
  | .boxFilter depth channels request time source target =>
    .boxFilter depth channels request time (place source) (place target)
  | .norm depth channels code source mask =>
    .norm depth channels code (place source) (mask.map place)
  | .fence => .fence

/-- What is told about a launch for buffers of the given lengths. -/
def verdict (lengths : String → Depth → Nat) (launch : Launch) : Except Refusal Unit :=
  told (launch.accept lengths 0)

/-- Whether a launch is accepted for buffers of the given lengths. -/
def passes (lengths : String → Depth → Nat) (launch : Launch) : Bool :=
  (launch.accept lengths 0).toOption.isSome

variable {lengths others : String → Depth → Nat}

/-- A launch is judged alike for all slots, and the job has its result in the slot that is given. -/
theorem accept_slot (lengths : String → Depth → Nat) (slot : Nat) (launch : Launch) :
    launch.accept lengths slot = (launch.accept lengths 0).map (Job.withSlot slot) := by
  -- The slot is stored in the job at the end and judged by nothing.
  cases launch with
  | resize depth channels mode source target =>
    simp only [accept, map_judged]
    rfl
  | boxFilter depth channels request time source target =>
    cases time <;>
    · simp only [accept, map_judged]
      rfl
  | norm depth channels code source mask =>
    cases mask <;>
    · simp only [accept, map_judged]
      rfl
  | fence => rfl

/-- The verdict is told whatever slot the launch is judged with. -/
theorem told_accept (lengths : String → Depth → Nat) (slot : Nat) (launch : Launch) :
    told (launch.accept lengths slot) = launch.verdict lengths := by
  -- What is told of an accepted job is that it is one.
  rw [verdict, accept_slot lengths slot]
  cases launch.accept lengths 0 <;> rfl

/-- A verdict depends on the selectors of a launch, on the shapes of its regions and on the lengths
of the buffers behind their offsets. -/
theorem verdict_move {launch : Launch} {place : Region → Region}
    (alike : ∀ region ∈ launch.regions, region.Alike lengths others (place region)) :
    (launch.move place).verdict others = launch.verdict lengths := by
  -- Every judgement of a kernel is of one of its regions, of two extents or of none of them.
  cases launch with
  | resize depth channels mode source target =>
    have first := alike source (by simp [regions, sources])
    have second := alike target (by simp [regions, target?])
    simp only [verdict, move, accept, told, map_judged, first.check_eq, second.check_eq]
    rfl
  | boxFilter depth channels request time source target =>
    have first := alike source (by simp [regions, sources])
    have second := alike target (by simp [regions, target?])
    -- The window is judged in either place, and the regions are judged around it.
    cases time <;>
    · simp only [verdict, move, accept, told, map_judged, first.check_eq, second.check_eq,
        first.extent, second.extent]
      rfl
  | norm depth channels code source mask =>
    have first := alike source (by simp [regions, sources])
    -- Without a mask the image alone is judged; with one the extents are compared as well.
    cases mask with
    | none =>
      simp only [verdict, move, accept, told, map_judged, first.check_eq, Option.map_none]
      rfl
    | some mask =>
      have second := alike mask (by simp [regions, sources])
      simp only [verdict, move, accept, told, map_judged, first.check_eq, second.check_eq,
        first.extent, second.extent, Option.map_some]
      rfl
  | fence => rfl

end Launch

end Raster
