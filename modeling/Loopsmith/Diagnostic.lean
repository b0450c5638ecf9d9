import Loopsmith.Parameters.Text
import Loopsmith.Template.Basic

/-!
# Diagnostics

An error about a text, prepared for a person: which text, where in it, what is
wrong, and a hint at what to write instead.  How a diagnostic is drawn is left
to whoever shows it.
-/

namespace Loopsmith

inductive Severity where
  | error
  | warning
  deriving DecidableEq, Repr

structure Diagnostic where
  severity : Severity
  /-- The name of the text that the span points into. -/
  sourceId : String
  span : Span
  message : String
  note : Option String
  deriving DecidableEq, Repr

namespace Diagnostic

def ofRenderError (sourceId : String) (e : RenderError) : Diagnostic :=
  { severity := .error
    sourceId
    span := e.span
    message := e.message
    note := some <| match e with
      | .unbound name _ => s!"pass a value with `-p {name}:<value>`"
      | .tag _ =>
          "tags have the form `/*<DOPING NAME >*/` or `/*<DOPING_IF NAME BODY >*/`" }

def ofParameterError (sourceId : String) (e : ParameterError) : Diagnostic :=
  { severity := .error
    sourceId
    span := e.span
    message := e.message
    note := some "parameters are comma-separated `NAME:value` pairs" }

end Diagnostic
end Loopsmith
