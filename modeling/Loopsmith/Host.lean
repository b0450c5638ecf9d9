import Loopsmith.Compiler.Toolchain
import Loopsmith.Loop.Key
import Loopsmith.Machine
import Loopsmith.Store.Timestamp

/-!
# The host

Everything the library relies on and does not decide: which compilers there are, what
the loader makes of a library, what a body does once it is entered, and the clock.
All of it is a value, so a statement about the library can be made for every host,
or for every host that behaves in some way.
-/

namespace Loopsmith

/-- Why a library cannot be used. -/
structure LoadFailure where
  reason : String
  /-- Whether the library itself could be loaded, only to lack an entry point. -/
  loaded : Bool
  deriving DecidableEq, Repr

/-- Loads the library at a path and resolves its entry point; the number says how many
libraries were asked for before. -/
abbrev Loader := Nat → FileTree → String → Except LoadFailure EntryPoint

structure Host where
  hash : TemplateHash
  toolchain : Toolchain
  load : Loader
  /-- Runs a body: its status, and the memory after it. -/
  enter : EntryPoint → Int64 → Pack → Memory → Int32 × Memory
  /-- The calls that a body makes while it runs. -/
  calls : EntryPoint → Int64 → Pack → List Call
  /-- Where working directories are made unless the settings say otherwise. -/
  temporaryDir : String
  now : Timestamp
  /-- How long a named piece of work takes, in nanoseconds. -/
  duration : String → Nat

end Loopsmith
