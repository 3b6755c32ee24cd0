import Raster.Box
import Raster.Memory
import Raster.Resize

/-!
Launches: a kernel with its selectors and the regions it works on.  A launch is judged when it is
submitted, by its selectors and the lengths of the buffers alone; what is accepted becomes a job.
-/

namespace Raster

/-- When the window of a filter launch is made. -/
inductive WindowTime where
  /-- Before the regions are judged. -/
  | before
  /-- After the border code and the regions have been judged. -/
  | after
  deriving DecidableEq, Repr

/-- Work offered to a stream. -/
inductive Launch where
  | resize (depth : Depth) (channels : Nat) (mode : Resampling) (source target : Region)
  | boxFilter (depth : Depth) (channels : Nat) (request : WindowRequest) (time : WindowTime)
      (source target : Region)
  | norm (depth : Depth) (channels : Nat) (code : Int) (source : Region) (mask : Option Region)
  /-- Waits for everything submitted to the stream before it. -/
  | fence
  deriving DecidableEq, Repr

/-- Accepted work. -/
inductive Job where
  | resize (depth : Depth) (channels : Nat) (mode : Resampling) (source target : Region)
  | boxFilter (depth : Depth) (channels : Nat) (window : BoxWindow) (source target : Region)
  | norm (depth : Depth) (channels : Nat) (kind : NormKind) (source : Region)
      (mask : Option Region) (slot : Nat)
  | fence
  deriving DecidableEq, Repr

namespace Launch

/-- Whether the launch has a result slot of its own. -/
def isNorm : Launch → Bool
  | .norm .. => true
  | _ => false

/-- The name under which an accepted launch is reported. -/
def kernelName : Launch → String
  | .resize .. => "resize"
  | .boxFilter .. => "box_filter"
  | .norm .. => "norm"
  | .fence => "sync"

/-- The buffer that the launch would write. -/
def target? : Launch → Option Region
  | .resize _ _ _ _ target => some target
  | .boxFilter _ _ _ _ _ target => some target
  | _ => none

/-- The job for a launch, given the lengths of the buffers and the slot for its result. -/
def accept (lengths : String → Depth → Nat) (slot : Nat) : Launch → Except Refusal Job
  | .resize depth channels mode source target => do
    source.check lengths depth channels
    target.check lengths depth channels
    checkChannels channels
    return .resize depth channels mode source target
  -- Whether the window is made before or after the regions are checked decides which of two faults
  -- is reported.
  | .boxFilter depth channels request .before source target => do
    let window ← request.window
    source.check lengths depth channels
    target.check lengths depth channels
    checkChannels channels
    checkExtent source.extent target.extent
    return .boxFilter depth channels window source target
  | .boxFilter depth channels request .after source target => do
    let _ ← Border.ofCode? request.border
    source.check lengths depth channels
    target.check lengths depth channels
    let window ← request.window
    checkChannels channels
    checkExtent source.extent target.extent
    return .boxFilter depth channels window source target
  | .norm depth channels code source mask => do
    let kind ← NormKind.ofCode code
    source.check lengths depth channels
    match mask with
    | none =>
      checkChannels channels
      return .norm depth channels kind source none slot
    | some mask =>
      mask.check lengths .byte 1
      checkChannels channels
      checkExtent source.extent mask.extent
      return .norm depth channels kind source (some mask) slot
  | .fence => .ok .fence

end Launch

/-- What accepted work yields, a fault when it is refused after all. -/
def settled {α : Type} (result : Except Refusal (Option α)) : Option α :=
  result.toOption.join

namespace Job

/-- Runs a job on a memory, with rows summed in at most `limit` groups. -/
def run (limit : Nat) (memory : Memory) : Job → Option Memory
  | .resize depth channels mode source target => do
    let written ← settled do
      let sourceView ← source.view memory depth channels
      let targetView ← target.view memory depth channels
      Raster.resize mode sourceView targetView
    return target.write memory written
  | .boxFilter depth channels window source target => do
    let written ← settled do
      let sourceView ← source.view memory depth channels
      let targetView ← target.view memory depth channels
      Raster.boxFilter window sourceView targetView
    return target.write memory written
  -- A norm reads its regions and writes to its slot only.
  | .norm depth channels kind source mask slot => do
    let value ← settled do
      let sourceView ← source.view memory depth channels
      let marks ← match mask with
        | none => pure none
        | some mask => some <$> mask.view memory .byte 1
      Raster.norm kind limit sourceView marks
    return memory.setNorm slot value
  | .fence => some memory

end Job

/-- Submits one launch on its own and runs its job at once. -/
def Launch.perform (limit : Nat) (memory : Memory) (launch : Launch) :
    Except Refusal (Option Memory) := do
  -- Alone in its scope, a norm has the first slot.
  let job ← launch.accept memory.lengths 0
  return job.run limit memory

end Raster
