import Raster.Refusal

/-! Engines: the settings that kernels run under, and the streams opened on an engine. -/

namespace Raster

/-- The settings of an engine. -/
structure Settings where
  /-- Worker threads, chosen by the engine when absent. -/
  threads : Option Nat
  threadName : String
  /-- Groups into which rows are divided for partial sums. -/
  rowGroups : Nat
  deriving DecidableEq, Repr

namespace Settings

/-- The settings used when none are given. -/
def standard : Settings := ⟨none, "imageops-kernels", 256⟩

/-- The settings with a number of worker threads. -/
def withThreads (settings : Settings) (threads : Nat) : Settings :=
  { settings with threads := some threads }

/-- The settings with a name for threads. -/
def withThreadName (settings : Settings) (name : String) : Settings :=
  { settings with threadName := name }

/-- The settings with a number of row groups. -/
def withRowGroups (settings : Settings) (groups : Nat) : Settings :=
  { settings with rowGroups := groups }

/-- Refuses settings without threads or without row groups. -/
def check (settings : Settings) : Except Refusal Unit :=
  -- The number of threads is judged first; leaving it open is allowed.
  if settings.threads = some 0 then .error (.badSettings "num_threads must be non-zero")
  else if settings.rowGroups = 0 then .error (.badSettings "partial_groups must be non-zero")
  else .ok ()

end Settings

/-- An engine that has opened the streams numbered below `opened`. -/
structure Engine where
  settings : Settings
  opened : Nat
  deriving DecidableEq, Repr

namespace Engine

/-- An engine without streams, refused for settings that it cannot run under. -/
def start (settings : Settings) : Except Refusal Engine := do
  settings.check
  return ⟨settings, 0⟩

/-- Opens streams; they are numbered in the order of opening over the life of the engine. -/
def openStreams (engine : Engine) (count : Nat) : List Nat × Engine :=
  (List.range' engine.opened count, { engine with opened := engine.opened + count })

end Engine

end Raster
