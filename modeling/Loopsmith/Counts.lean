/-!
# Counters

How often each thing happened, at the three levels of the library: the engine that
answers calls, the cache of what was built, and the pipeline that builds.
-/

namespace Loopsmith

/-- Each call counts as an invocation and under one of the other six. -/
structure EngineCounts where
  invocations : Nat := 0
  /-- Calls from loops that had nothing left to do. -/
  finished : Nat := 0
  /-- Calls that came while another was being answered. -/
  reentrant : Nat := 0
  /-- Calls from loops that were too far on to be worth a build. -/
  deferred : Nat := 0
  cacheHits : Nat := 0
  specialized : Nat := 0
  failed : Nat := 0
  deriving DecidableEq, Repr

structure CacheCounts where
  entries : Nat := 0
  hits : Nat := 0
  misses : Nat := 0
  failures : Nat := 0
  deriving DecidableEq, Repr

structure PipelineCounts where
  compilations : Nat := 0
  /-- Libraries that were loaded and have an entry point. -/
  links : Nat := 0
  /-- Those of them that came from the store. -/
  storeHits : Nat := 0
  deriving DecidableEq, Repr

/-- All counters at one moment, and whether a call was being answered. -/
structure Tally where
  engine : EngineCounts
  cache : CacheCounts
  pipeline : PipelineCounts
  busy : Bool
  deriving DecidableEq, Repr

end Loopsmith
