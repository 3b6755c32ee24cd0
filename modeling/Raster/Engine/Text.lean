import Raster.Engine
import Raster.Text.Quoted

/-! The one-line texts that describe settings, engines and streams. -/

namespace Raster

/-- A number of threads that may be left to the engine. -/
def threadsText : Option Nat → String
  | none => "None"
  | some threads => s!"Some({threads})"

/-- The text of settings; the name of threads is quoted. -/
def Settings.text (settings : Settings) : String :=
  "ContextConfig \x7b num_threads: " ++ threadsText settings.threads ++ ", thread_name: " ++
    Text.quoted settings.threadName ++ s!", partial_groups: {settings.rowGroups} \x7d"

/-- The text of an engine, known when its settings name the number of threads. -/
def Engine.text? (engine : Engine) : Option String :=
  engine.settings.threads.map fun threads =>
    s!"ExecutionContext \x7b num_threads: {threads}, config: " ++ engine.settings.text ++ " \x7d"

/-- The text of a numbered stream. -/
def streamText (stream : Nat) : String := s!"Stream \x7b id: {stream} \x7d"

end Raster
