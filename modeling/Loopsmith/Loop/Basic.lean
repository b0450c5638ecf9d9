/-!
# Loops

What a loop site says about itself on every call: an optional name, the template
of its body, the constants to build in, the compiler to build with, and the
iterations it runs over.

Progress is the fraction of the iteration space that lies behind, as a double.
The length of the space is capped at the largest 64-bit integer, and a space that
is empty or runs backwards counts as no progress at all.
-/

namespace Loopsmith

/-- The compiler of loops that name none. -/
def defaultCompiler : String := "cc"

/-- How a loop without a name is called in reports. -/
def anonymousName : String := "<anonymous>"

structure LoopSite where
  name : Option String
  source : String
  /-- Written as `NAME:value` pairs. -/
  parameters : String
  compiler : String
  first : Int64
  bound : Int64
  deriving DecidableEq, Repr

namespace LoopSite

def displayName (site : LoopSite) : String :=
  site.name.getD anonymousName

def largestLength : Int := Int64.maxValue.toInt

/-- The number of iterations, capped; negative for a space that runs
backwards. -/
def length (site : LoopSite) : Int :=
  min (site.bound.toInt - site.first.toInt) largestLength

def progress (site : LoopSite) (iteration : Int64) : Float :=
  if site.length ≤ 0 then 0 else iteration.toFloat / (Int64.ofInt site.length).toFloat

end LoopSite

/-! ## When a loop is worth specializing -/

/-- Decides about a loop that has not been built yet. -/
inductive Policy where
  | always
  /-- Only while less than this fraction of the loop has run. -/
  | below (threshold : Float)

/-- The threshold when none, or none that is usable, is given. -/
def Policy.defaultThreshold : Float := 0.5

def Policy.admits : Policy → Float → Bool
  | always, _ => true
  | below threshold, progress => progress < threshold

end Loopsmith
