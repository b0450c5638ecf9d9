import Loopsmith.Abi.Memory
import Loopsmith.Counts
import Loopsmith.Event
import Loopsmith.Files.Tree
import Loopsmith.Loop.Call

/-!
# The machine

What specialization works on and leaves traces in: the files, the caller's memory,
the numbers that have been given to intermediate files, and a journal of what was
reported, timed and run.
-/

namespace Loopsmith

/-- The number under which the loader knows an entry point. -/
abbrev EntryPoint := Nat

/-- One run of a specialized body. -/
structure BodyRun where
  entry : EntryPoint
  iteration : Int64
  pack : Pack
  /-- The memory as the body found it. -/
  before : Memory
  /-- What the calls that the body itself made returned. -/
  nested : List Int32
  /-- The counters after those calls. -/
  seen : Tally
  status : Int32
  deriving DecidableEq, Repr

inductive Record where
  | event (e : Event)
  /-- A line of benchmark output. -/
  | timing (label : String)
  | run (r : BodyRun)

structure Machine where
  files : FileTree
  /-- The number of the next intermediate files. -/
  nextStem : Nat
  memory : Memory
  /-- What happened, in order. -/
  journal : List Record

namespace Machine

def note (m : Machine) (r : Record) : Machine :=
  { m with journal := m.journal ++ [r] }

def report (m : Machine) (e : Event) : Machine :=
  m.note (.event e)

def reportAll (m : Machine) (es : List Event) : Machine :=
  { m with journal := m.journal ++ es.map .event }

def events (m : Machine) : List Event :=
  m.journal.filterMap fun
    | .event e => some e
    | _ => none

def timings (m : Machine) : List String :=
  m.journal.filterMap fun
    | .timing label => some label
    | _ => none

def runs (m : Machine) : List BodyRun :=
  m.journal.filterMap fun
    | .run r => some r
    | _ => none

end Machine
end Loopsmith
