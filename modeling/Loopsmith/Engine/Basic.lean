import Loopsmith.Body
import Loopsmith.Cache
import Loopsmith.Counts
import Loopsmith.Logging.Logger
import Loopsmith.Settings.Environment

/-!
# The engine

An engine answers the calls of loops.  It owns its settings, a pipeline, the bodies
built so far and the guard that keeps a call from starting while another is being
answered.  Its state together with that of the machine is what a call changes.

An engine can be made with the settings of an environment.  The logger comes first, so
that it gets what there is to report about the settings; without it there is no engine.
-/

namespace Loopsmith

structure Engine where
  settings : Settings
  pipeline : Pipeline
  cache : Cache Key Body
  counts : EngineCounts
  /-- The guard: whether a call is being answered. -/
  busy : Bool

structure State where
  engine : Engine
  machine : Machine

/-- Why there is no engine. -/
inductive StartError where
  | logging (reason : LoggingError)
  | settings (reason : SettingsError)
  deriving DecidableEq, Repr

namespace Engine

def ofPipeline (settings : Settings) (pipeline : Pipeline) : Engine :=
  ⟨settings, pipeline, .empty, {}, false⟩

/-- A new engine, and what opening its store left behind. -/
def ofSettings (settings : Settings) (m : Machine) : Engine × Machine :=
  let (pipeline, m) := Pipeline.ofSettings settings m
  (ofPipeline settings pipeline, m)

/-- A new engine with the settings of an environment. -/
def ofEnvironment (home : Option String) (env : Environment) (m : Machine) :
    Except StartError Engine × Machine :=
  match Logger.start (.ofEnvironment env) m.files with
  | (.error e, files) => (.error (.logging e), { m with files })
  | (.ok (_, logEvents), files) =>
      let (settings, settingsEvents) := Settings.ofEnvironment home env
      let m := Machine.reportAll { m with files } (logEvents ++ settingsEvents)
      match settings with
      | .error e => (.error (.settings e), m)
      | .ok settings =>
          let (engine, m) := ofSettings settings m
          (.ok engine, m)

def isCached (e : Engine) (key : Key) : Bool :=
  e.cache.contains key

def tally (e : Engine) : Tally :=
  { engine := e.counts
    cache := ⟨e.cache.size, e.cache.hits, e.cache.misses, e.cache.failures⟩
    pipeline := e.pipeline.counts
    busy := e.busy }

end Engine

namespace State

/-- Changes the engine's counters. -/
def count (s : State) (f : EngineCounts → EngineCounts) : State :=
  { s with engine := { s.engine with counts := f s.engine.counts } }

def setBusy (s : State) (busy : Bool) : State :=
  { s with engine := { s.engine with busy } }

def report (s : State) (e : Event) : State :=
  { s with machine := s.machine.report e }

/-- Writes a benchmark line if the settings ask for them. -/
def time (s : State) (label : String) : State :=
  if s.engine.settings.benchmark then { s with machine := s.machine.note (.timing label) } else s

/-- Counts and reports a call that could not be served. -/
def fail (s : State) (site : LoopSite) (e : SpecializationError) : State :=
  let s := s.count fun c => { c with failed := c.failed + 1 }
  (s.report (.failed site.displayName e)).report .keepingBaseline

end State
end Loopsmith
