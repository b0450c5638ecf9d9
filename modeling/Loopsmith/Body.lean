import Loopsmith.Pipeline.Basic

/-!
# Loop bodies

A body is a template rendered for some parameters and, once it has been linked, the
library that implements it.  It is rendered when it is made and linked at most once:
linking a linked body does nothing.
-/

namespace Loopsmith

structure Body where
  parameters : Parameters
  rendered : String
  artifact : Option Artifact
  deriving DecidableEq, Repr

namespace Body

/-- Renders a template for parameters that have been read. -/
def withParameters (source : String) (ps : Parameters) : Except SpecializationError Body :=
  match renderSource source ps with
  | .ok rendered => .ok ⟨ps, rendered, none⟩
  | .error e => .error (.render e)

/-- Renders a template for written parameters. -/
def make (source parameters : String) : Except SpecializationError Body :=
  match Parameters.parse parameters with
  | .ok ps => withParameters source ps
  | .error e => .error (.parameters e)

def isLinked (b : Body) : Bool :=
  b.artifact.isSome

/-- Finds or builds the library of a body. -/
def link (b : Body) (host : Host) (command : String) (p : Pipeline) (m : Machine) :
    Except SpecializationError Body × Pipeline × Machine :=
  match b.artifact with
  | some _ => (.ok b, p, m)
  | none =>
      match p.compileAndLink host b.rendered command m with
      | (.ok a, p, m) => (.ok { b with artifact := some a }, p, m)
      | (.error e, p, m) => (.error e, p, m)

end Body
end Loopsmith
