import Loopsmith.Abi.Value
import Loopsmith.Loop.Basic

/-!
# Calls from a loop

On each iteration a loop asks whether the rest of it can be run by a specialized
body.  It says where it is, whether it has anything left to do (a nonzero
condition), what it is, and which arguments a body would get.
-/

namespace Loopsmith

structure Call where
  iteration : Int64
  /-- Zero once the loop has finished. -/
  condition : Int32
  site : LoopSite
  pack : Pack
  deriving DecidableEq, Repr

end Loopsmith
