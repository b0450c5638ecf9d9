import Loopsmith.Error
import Loopsmith.Logging.Level
import Loopsmith.Loop.Basic

/-!
# Events

What the library reports while it works.  An event is the thing that happened;
its level, its target, its message and the named values beside it are derived from it.
The target says which part of the library reports, and log filters choose by it.
-/

namespace Loopsmith

inductive Event where
  /-- The progress threshold could not be used. -/
  | thresholdIgnored (raw : String)
  /-- The log filter could not be used. -/
  | filterIgnored (directive fallback : String)
  /-- The parameters of a command line run were read. -/
  | parametersRead (text : String)
  | storeOpened (root : String)
  | storeDisabled (root reason : String)
  | storeLookupFailed (key reason : String)
  /-- A record names a library that does not exist. -/
  | storedLibraryMissing (path : String)
  | storedLibraryUnusable (key reason : String)
  | storedLibraryReused (key : String)
  | libraryStored (key : String) (size : Nat)
  | storeFailed (key reason : String)
  | compilerStarted (program : String) (arguments : List String)
  | compilerEnded (output : String)
  | compilerLogFailed (path reason : String)
  | libraryCompiled (path : String) (milliseconds : Nat)
  | libraryLoaded (path : String)
  | libraryUnloaded (path : String)
  | intermediatesKept (path : String)
  | intermediatesStuck (path reason : String)
  | libraryBuilt (path origin : String)
  | deferred (loop : String) (percent : Float)
  | specialized (loop : String) (iteration : Int64)
  | failed (loop : String) (error : SpecializationError)
  | keepingBaseline
  | badStrings

/-- A named value beside an event's message. -/
inductive FieldValue where
  | text (s : String)
  | int (i : Int)
  | float (x : Float)

namespace Event

def level : Event → Level
  | compilerEnded _ => .trace
  | parametersRead _ | storeOpened _ | storedLibraryMissing _ | storedLibraryReused _
  | libraryStored _ _ | compilerStarted _ _ | libraryCompiled _ _ | libraryLoaded _
  | libraryUnloaded _ => .debug
  | intermediatesKept _ | libraryBuilt _ _ | deferred _ _ | specialized _ _ => .info
  | thresholdIgnored _ | filterIgnored _ _ | storeDisabled _ _ | storeLookupFailed _ _
  | storedLibraryUnusable _ _ | storeFailed _ _ | compilerLogFailed _ _
  | intermediatesStuck _ _ => .warn
  | failed _ _ | keepingBaseline | badStrings => .error

/-- The part of the library that reports. -/
def target : Event → String
  | thresholdIgnored _ => "doping::config"
  | filterIgnored _ _ => "doping::utils::logger"
  | parametersRead _ | libraryBuilt _ _ => "doping::cli"
  | storeOpened _ | storedLibraryMissing _ | libraryStored _ _ => "doping::cache::manager"
  | storeDisabled _ _ | storeLookupFailed _ _ | storedLibraryUnusable _ _
  | storedLibraryReused _ | storeFailed _ _ | compilerLogFailed _ _ | libraryCompiled _ _
  | intermediatesKept _ | intermediatesStuck _ _ => "doping::codegen"
  | compilerStarted _ _ | compilerEnded _ => "doping::codegen::toolchain"
  | libraryLoaded _ | libraryUnloaded _ => "doping::codegen::loader"
  | deferred _ _ | specialized _ _ | failed _ _ | keepingBaseline =>
      "doping::runtime::jit::engine"
  | badStrings => "doping::capi"

/-- The message, which some events do without. -/
def message? : Event → Option String
  | thresholdIgnored _ => some "DOPING_THRESHOLD is not a number, using the default"
  | filterIgnored _ _ => some "invalid DOPING_LOG filter, using the verbosity level"
  | parametersRead _ => some "parsed parameters"
  | storeOpened _ | storedLibraryMissing _ => none
  | storeDisabled _ reason => some s!"artifact store disabled: {reason}"
  | storeLookupFailed _ reason => some s!"artifact store lookup failed: {reason}"
  | storedLibraryUnusable _ reason => some s!"stored library unusable: {reason}"
  | storedLibraryReused _ => some "reusing stored library"
  | libraryStored _ _ => some "stored library"
  | storeFailed _ reason => some s!"failed to store library: {reason}"
  | compilerStarted _ _ => some "invoking compiler"
  | compilerEnded _ => some "compiler output"
  | compilerLogFailed _ reason => some s!"failed to write compiler log: {reason}"
  | libraryCompiled _ _ => some "compiled specialized library"
  | libraryLoaded _ => some "loaded specialized library"
  | libraryUnloaded _ => some "unloading specialized library"
  | intermediatesKept _ => some "kept intermediate files"
  | intermediatesStuck _ reason => some s!"failed to remove intermediate files: {reason}"
  | libraryBuilt _ _ => some "built specialized library"
  | deferred _ _ => some "too far into the loop, keeping baseline"
  | specialized _ _ => some "render, compile and link finished"
  | failed _ error => some s!"failed to specialize loop: {error.message}"
  | keepingBaseline => some "continuing with baseline code"
  | badStrings => some "doping_loop strings must be valid UTF-8 and `source` must be set"

def message (e : Event) : String :=
  e.message?.getD ""

def fields : Event → List (String × FieldValue)
  | thresholdIgnored raw => [("value", .text raw), ("default", .float Policy.defaultThreshold)]
  | filterIgnored directive fallback =>
      [("directive", .text directive), ("fallback", .text fallback)]
  | parametersRead text => [("parameters", .text text)]
  | storeOpened root => [("artifact store initialised", .text root)]
  | storeDisabled root _ => [("root", .text root)]
  | storedLibraryMissing path => [("stored library missing", .text path)]
  | storeLookupFailed key _ | storedLibraryUnusable key _ | storedLibraryReused key
  | storeFailed key _ => [("key", .text key)]
  | libraryStored key size => [("key", .text key), ("size", .int size)]
  | compilerStarted program arguments =>
      [("program", .text program), ("args", .text (String.intercalate " " arguments))]
  | compilerEnded output => [("output", .text output)]
  | libraryCompiled path milliseconds =>
      [("library", .text path), ("elapsed_ms", .int milliseconds)]
  | compilerLogFailed path _ | libraryLoaded path | libraryUnloaded path
  | intermediatesKept path | intermediatesStuck path _ => [("path", .text path)]
  | libraryBuilt path origin => [("library", .text path), ("origin", .text origin)]
  | deferred loop percent => [("loop_name", .text loop), ("progress_pct", .float percent)]
  | specialized loop iteration =>
      [("loop_name", .text loop), ("current_iteration", .int iteration.toInt)]
  | failed loop error => [("loop_name", .text loop), ("kind", .text error.kind)]
  | keepingBaseline | badStrings => []

/-- The names of the fields, the message being one of them. -/
def fieldNames (e : Event) : List String :=
  e.fields.map (·.1) ++ e.message?.toList.map fun _ => "message"

end Event
end Loopsmith
