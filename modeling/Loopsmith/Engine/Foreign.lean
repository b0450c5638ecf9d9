import Loopsmith.Engine.Specialize

/-!
# Calls from C

C gets an engine with the settings of the environment, or a null pointer if there is
none to be had.

A loop written in C describes itself by pointers to zero-terminated strings, any of
which may be null.  A null name means no name, null parameters mean none, and a null
compiler means the default one; there has to be a source, and what is there has to be
text.  Otherwise, and when the engine or the description itself is null, the loop
goes on as it is and the engine does not even count the call.
-/

namespace Loopsmith

/-- A loop as C describes it; a missing string is a null pointer. -/
structure ForeignLoop where
  name : Option (List UInt8)
  source : Option (List UInt8)
  parameters : Option (List UInt8)
  compiler : Option (List UInt8)
  first : Int64
  bound : Int64
  deriving DecidableEq, Repr

namespace ForeignLoop

/-- The bytes up to the first zero, as text. -/
def stringAt (bytes : List UInt8) : Option String :=
  (Text.decode? (bytes.takeWhile (· != 0))).map String.ofList

/-- A string that may be null; the outer option is missing if it is not text. -/
def optionalString : Option (List UInt8) → Option (Option String)
  | none => some none
  | some bytes => (stringAt bytes).map some

/-- The site that is described, if it can be read. -/
def site? (l : ForeignLoop) : Option LoopSite := do
  let name ← optionalString l.name
  let source ← (← optionalString l.source)
  let parameters ← optionalString l.parameters
  let compiler ← optionalString l.compiler
  return {
    name, source
    parameters := parameters.getD ""
    compiler := compiler.getD defaultCompiler
    first := l.first
    bound := l.bound }

end ForeignLoop

/-- Makes an engine for C. -/
def startForeign (home : Option String) (env : Environment) (m : Machine) :
    Option Engine × Machine :=
  match Engine.ofEnvironment home env m with
  | (.error _, m) => (none, m)
  | (.ok e, m) => (some e, m)

/-- Answers a call from C. -/
def specializeForeign (host : Host) (engine : Option Engine) (iteration : Int64)
    (condition : Int32) (loop : Option ForeignLoop) (pack : Option Pack) (m : Machine) :
    Int32 × Option Engine × Machine :=
  match engine, loop with
  | some e, some l =>
      match l.site? with
      | none => (condition, some e, m.report .badStrings)
      | some site =>
          let call : Call := ⟨iteration, condition, site, pack.getD .empty⟩
          let (status, s) := specialize host call ⟨e, m⟩
          (status, some s.engine, s.machine)
  | e, _ => (condition, e, m)

end Loopsmith
