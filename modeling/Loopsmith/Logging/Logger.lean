import Loopsmith.Event
import Loopsmith.Files.Tree
import Loopsmith.Logging.Filter
import Loopsmith.Settings.Basic

/-!
# Loggers

A logger lets events through a filter, to the error output or to a file.  The file is
opened when the logger is made.  A malformed filter is replaced by the level of the
verbosity, and the logger's first event says so; one that cannot even be taken apart makes
the whole undertaking fail, before the file is opened.
-/

namespace Loopsmith

/-- Why there is no logger. -/
inductive LoggingError where
  /-- The log file could not be opened. -/
  | unopenable (path : String) (reason : FileError)
  /-- The filter cannot be taken apart. -/
  | indivisible
  deriving DecidableEq, Repr

namespace LoggingError

/-- What was being done. -/
def context : LoggingError → String
  | unopenable path _ => s!"failed to open log file {path}"
  | indivisible => "failed to take the log filter apart"

def reason : LoggingError → String
  | unopenable _ e => e.message
  | indivisible => "a cut falls inside a character"

def message (e : LoggingError) : String :=
  s!"{e.context}: {e.reason}"

end LoggingError

structure Logger where
  filter : Filter
  file : Option String
  deriving DecidableEq, Repr

namespace Logger

/-- Whether an event is written to the error output. -/
def isPrinted (l : Logger) (e : Event) : Bool :=
  l.file.isNone && l.filter.shows e.target e.fieldNames e.level

/-- The filter of some settings, and what there is to report about it. -/
def readFilter (s : LogSettings) : Except LoggingError (Filter × List Event) :=
  match s.directive with
  | none => .ok (.ofLevel s.level, [])
  | some text =>
      match Filter.read text with
      | .ok f => .ok (f, [])
      | .error .malformed => .ok (.ofLevel s.level, [.filterIgnored text s.level.name])
      | .error .insideCharacter => .error .indivisible

/-- Makes the logger of some settings. -/
def start (s : LogSettings) (files : FileTree) :
    Except LoggingError (Logger × List Event) × FileTree :=
  match readFilter s with
  | .error e => (.error e, files)
  | .ok (filter, events) =>
      match s.file with
      | none => (.ok (⟨filter, none⟩, events), files)
      | some path =>
          match files.touch path with
          | .error e => (.error (.unopenable path e), files)
          | .ok files => (.ok (⟨filter, some path⟩, events), files)

end Logger
end Loopsmith
