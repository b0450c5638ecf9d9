import Loopsmith.Parameters.Text
import Loopsmith.Template.Basic

/-!
# Why a loop was not specialized

None of these stops the caller: the engine reports the error and the loop goes
on with the code it already has.  Each constructor is one cause and carries what
the report needs; `message` is the report, and `kind` is the label under which
it is counted in logs.
-/

namespace Loopsmith

inductive SpecializationError where
  | render (e : RenderError)
  | parameters (e : ParameterError)
  /-- A file or directory could not be handled; `action` completes "failed to". -/
  | file (action path reason : String)
  /-- The compiler gave no usable library: it failed with a status, or (without one)
  it could not be started, was killed, or wrote nothing. -/
  | compile (command : String) (status : Option Int) (output : String)
  | link (path reason : String)
  | notLinked
  deriving DecidableEq, Repr

namespace SpecializationError

/-- How the compiler ended. -/
def describeStatus : Option Int → String
  | some code => s!"exited with status {code}"
  | none => "did not produce a library"

def message : SpecializationError → String
  | render e => e.message
  | parameters e => s!"invalid loop parameters: {e.message}"
  | file action path reason => s!"failed to {action} {path}: {reason}"
  | compile command status output =>
      s!"compiler command `{command}` {describeStatus status}:\n{output}"
  | link path reason => s!"failed to link {path}: {reason}"
  | notLinked => "specialized function has not been compiled and linked"

def kind : SpecializationError → String
  | render (.tag _) => "TagParseError"
  | render (.unbound _ _) => "MissingContextKey"
  | parameters _ => "ParameterParseError"
  | file _ _ _ => "FileIOError"
  | compile _ _ _ => "CompileError"
  | link _ _ => "LinkError"
  | notLinked => "NotLinkedError"

end SpecializationError
end Loopsmith
