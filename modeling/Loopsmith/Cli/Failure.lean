import Loopsmith.Diagnostic
import Loopsmith.Error
import Loopsmith.Logging.Logger
import Loopsmith.Text.Search

/-!
# Why a run failed

A failed run ends with an explanation on the error output: what was being done, and
below it the causes, from the nearest to the first.  A single cause is indented by four
blanks; several are numbered.

Errors in a template or in parameters have been shown as a diagnostic by then, and the
explanation is left out.  They are recognized by their wording.
-/

namespace Loopsmith
namespace Cli

inductive Failure where
  | logging (path : String) (e : FileError)
  | settings (e : SettingsError)
  | reading (path : String) (e : FileError)
  | parameters (e : ParameterError)
  | rendering (path : String) (e : RenderError)
  | building (e : SpecializationError)
  deriving DecidableEq, Repr

namespace Failure

def renderingFailed : String := "template rendering failed"

def invalidParameters : String := "invalid parameters"

/-- What was being done. -/
def context : Failure → String
  | logging path e => (LoggingError.unopenable path e).context
  | settings e => e.message
  | reading path _ => s!"failed to read {path}"
  | parameters _ => invalidParameters
  | rendering _ _ => renderingFailed
  | building _ => "failed to build specialized library"

/-- Why that failed, the nearest cause first. -/
def causes : Failure → List String
  | logging _ e => [e.message]
  | reading _ e => [e.message]
  | settings _ | parameters _ | rendering _ _ => []
  | building e =>
      e.message :: match e with
        | .file _ _ reason => [reason]
        | _ => []

/-- What has already been shown about it. -/
def diagnostic? : Failure → Option Diagnostic
  | parameters e => some (.ofParameterError "<parameters>" e)
  | rendering path e => some (.ofRenderError path e)
  | _ => none

/-- Whether the explanation is left out. -/
def isSilenced (f : Failure) : Bool :=
  Text.occursIn renderingFailed.toList f.context.toList ||
    Text.occursIn invalidParameters.toList f.context.toList

/-- A text with something in front of its first line and something in front of the
others. -/
def indented (first others text : String) : String :=
  let lines := (Text.splitOn '\n' text.toList).map String.ofList
  first ++ String.intercalate s!"\n{others}" lines

/-- A cause by its number. -/
def numbered (cause : String × Nat) : String :=
  let number := toString cause.2
  let padding := String.ofList (List.replicate (5 - number.length) ' ')
  indented s!"{padding}{number}: " "       " cause.1

def causesText : List String → String
  | [] => ""
  | [cause] => "\n\nCaused by:\n" ++ indented "    " "    " cause
  | many => "\n\nCaused by:\n" ++ String.intercalate "\n" (many.zipIdx.map numbered)

def text (f : Failure) : String :=
  s!"Error: {f.context}{causesText f.causes}\n"

end Failure
end Cli
end Loopsmith
