import Loopsmith.Cli.Arguments
import Loopsmith.Cli.Failure
import Loopsmith.Pipeline.Basic
import Loopsmith.Profile
import Loopsmith.Settings.Environment

/-!
# A run of the command line tool

The tool renders a template, builds it, runs what it built once without arguments, or
prints the header that templates include.  The whole run is a function of the
arguments, the environment and the machine; printing what it returns is left to the
program.
-/

namespace Loopsmith
namespace Cli

/-- Something written to the error output. -/
inductive Notice where
  | event (e : Event)
  | crash (e : LoggingError)
  | diagnostic (d : Diagnostic)
  | failure (f : Failure)
  | usage (stop : ArgumentStop)

/-- How a run ended. -/
structure Ended where
  exitCode : Nat
  stdout : String
  /-- What went to the error output, in order. -/
  notices : List Notice
  machine : Machine

/-- The name of the tool. -/
def toolName : String := "doping"

/-- What a run has got so far. -/
structure Progress where
  machine : Machine
  profile : Profile

namespace Progress

def report (w : Progress) (e : Event) : Progress :=
  { w with machine := w.machine.report e }

/-- Records that a phase has ended. -/
def phase (w : Progress) (host : Host) (name : String) : Progress :=
  { w with profile := w.profile.push name (host.duration name) }

end Progress

/-! ## The tasks -/

/-- Reads and renders a template. -/
def renderFile (host : Host) (path parameters : String) (w : Progress) :
    Except Failure String × Progress :=
  match w.machine.files.readText path with
  | .error e => (.error (.reading path e), w)
  | .ok source =>
      match Parameters.parse parameters with
      | .error e => (.error (.parameters e), w)
      | .ok ps =>
          let w := (w.report (.parametersRead ps.serialize)).phase host "Render"
          match renderSource source ps with
          | .error e => (.error (.rendering path e), w)
          | .ok rendered => (.ok rendered, w)

/-- Builds a rendered template. -/
def buildLibrary (host : Host) (p : Pipeline) (rendered command : String) (w : Progress) :
    Except Failure Artifact × Progress :=
  let (built, _, machine) := p.compileAndLink host rendered command w.machine
  let w := { w with machine }.phase host "Compile + link"
  match built with
  | .error e => (.error (.building e), w)
  | .ok a => (.ok a, w.report (.libraryBuilt a.library a.origin.name))

/-- Reads, renders and builds a template; the answer has the pipeline that was used. -/
def buildFile (host : Host) (settings : Settings) (keep : Bool)
    (path parameters compiler : String) (w : Progress) :
    Except Failure (Pipeline × Artifact) × Progress :=
  match renderFile host path parameters w with
  | (.error f, w) => (.error f, w)
  | (.ok rendered, w) =>
      let (p, machine) := Pipeline.ofSettings settings w.machine
      let p := { p with saveIntermediates := keep || settings.saveIntermediates }
      match buildLibrary host p rendered compiler { w with machine } with
      | (.error f, w) => (.error f, w)
      | (.ok a, w) => (.ok (p, a), w)

/-- Names the library if it is still there after the build. -/
def linkSummary (p : Pipeline) (a : Artifact) : String :=
  if p.saveIntermediates || a.origin == .store then s!"linked {a.library}\n"
  else "linked (library loaded, build directory removed; pass --keep to retain it)\n"

/-- Enters a library once, without arguments. -/
def execute (host : Host) (a : Artifact) (iteration : Int64) (w : Progress) : Int32 × Progress :=
  let (status, memory) := host.enter a.entry iteration .empty w.machine.memory
  (status, { w with machine := { w.machine with memory } }.phase host "Execute")

/-- Does what was asked for; the answer is what to print. -/
def perform (host : Host) (settings : Settings) (task : Task) (w : Progress) :
    Except Failure String × Progress :=
  match task with
  | .header => (.ok Header.text, w)
  | .render path parameters => renderFile host path parameters w
  | .build path parameters compiler keep =>
      match buildFile host settings keep path parameters compiler w with
      | (.error f, w) => (.error f, w)
      | (.ok (p, a), w) => (.ok (linkSummary p a), w)
  | .run path parameters compiler iteration =>
      match buildFile host settings false path parameters compiler w with
      | (.error f, w) => (.error f, w)
      | (.ok (_, a), w) =>
          let (status, w) := execute host a iteration w
          (.ok s!"status {status.toInt}\n", w)

/-! ## The whole run -/

/-- The help text. -/
def helpText : String :=
  "Render, compile and run doping loop templates\n\n" ++
  "Usage: doping [OPTIONS] <COMMAND>\n\n" ++
  "Commands:\n" ++
  "  render  Prints the template rendered against the given parameters\n" ++
  "  build   Renders, compiles and links the template, then reports the library\n" ++
  "  run     Builds the template and calls its entry point once with no arguments\n" ++
  "  header  Prints the C header describing the argument pack\n" ++
  "  help    Print this message or the help of the given subcommand(s)\n\n" ++
  "Options:\n" ++
  "      --time        Display phase timing information\n" ++
  "  -v, --verbose...  Raise log verbosity (repeat for more detail)\n" ++
  "  -h, --help        Print help\n" ++
  "  -V, --version     Print version\n"

/-- What is printed when there is nothing to run. -/
def stopText : ArgumentStop → String
  | .versionRequested => s!"{toolName} {version}\n"
  | .helpRequested => helpText
  | _ => ""

/-- The log settings of a run: a verbosity on the command line replaces the one in the
environment. -/
def logSettings (env : Environment) (call : Invocation) : LogSettings :=
  let log := LogSettings.ofEnvironment env
  if call.verbosity == 0 then log else { log with verbosity := UInt8.ofNat call.verbosity }

/-- What became of a task. -/
inductive Result where
  | printed (out : String)
  | failed (f : Failure)
  /-- The run broke off. -/
  | crashed (e : LoggingError)
  deriving DecidableEq, Repr

/-- How a task came out, before anything is said about a failure. -/
structure Outcome where
  result : Result
  /-- What went to the error output on the way, diagnostics included. -/
  notices : List Notice
  machine : Machine

/-- Does what was asked for, if there are settings. -/
def performIf (host : Host) (settings : Except SettingsError Settings) (task : Task)
    (w : Progress) : Except Failure String × Progress :=
  match settings with
  | .error e => (.error (.settings e), w)
  | .ok settings => perform host settings task w

/-- Sets the run up and does what was asked for. -/
def attempt (host : Host) (home : Option String) (env : Environment) (call : Invocation)
    (m : Machine) : Outcome :=
  match Logger.start (logSettings env call) m.files with
  | (.error .indivisible, files) => ⟨.crashed .indivisible, [], { m with files }⟩
  | (.error (.unopenable path e), files) => ⟨.failed (.logging path e), [], { m with files }⟩
  | (.ok (logger, logEvents), files) =>
      let (settings, settingsEvents) := Settings.ofEnvironment home env
      let started := Machine.reportAll { m with files } (logEvents ++ settingsEvents)
      let (result, w) := performIf host settings call.task ⟨started, .empty⟩
      let printed := w.machine.events.filter logger.isPrinted |>.map .event
      match result with
      | .error f => ⟨.failed f, printed ++ f.diagnostic?.toList.map .diagnostic, w.machine⟩
      | .ok out =>
          ⟨.printed (if call.time then out ++ w.profile.report else out), printed, w.machine⟩

/-- The exit code of a run that broke off. -/
def crashCode : Nat := 101

/-- Ends a run: a failure is explained, unless the explanation is to be left out. -/
def conclude (o : Outcome) : Ended :=
  match o.result with
  | .printed out => ⟨0, out, o.notices, o.machine⟩
  | .failed f => ⟨1, "", o.notices ++ (if f.isSilenced then [] else [.failure f]), o.machine⟩
  | .crashed e => ⟨crashCode, "", o.notices ++ [.crash e], o.machine⟩

/-- Runs the tool, for a user whose home directory is `home`. -/
def run (host : Host) (home : Option String) (env : Environment) (args : List String)
    (m : Machine) : Ended :=
  match Invocation.read args with
  | .error stop =>
      ⟨stop.exitCode, stopText stop, if stop.exitCode == 0 then [] else [.usage stop], m⟩
  | .ok call => conclude (attempt host home env call m)

end Cli
end Loopsmith
