import Loopsmith.Cli.Run

/-!
# The command line program

Reads the arguments, the environment and the template, runs the tool on them, and
prints what it returns.  The program does not start other programs, so every build ends
with a compiler that cannot be found.
-/

namespace Loopsmith
namespace Program

/-- A host without compilers. -/
def host (temporaryDir : String) : Host :=
  { hash := fun s => hash s
    toolchain := .ofPrograms fun _ => none
    load := fun _ _ _ => .error ⟨"no loader", false⟩
    enter := fun _ _ _ memory => (0, memory)
    calls := fun _ _ _ => []
    temporaryDir
    now := ⟨0, 0⟩
    duration := fun _ => 0 }

/-- The variables that settings are read from. -/
def settingNames : List String :=
  ["DOPING_VERBOSE", "DOPING_LOG", "DOPING_LOG_FILE", "DOPING_SAVE_FILES", "DOPING_BENCHMARK",
   "DOPING_THRESHOLD", "DOPING_WORK_DIR", "DOPING_CACHE", "DOPING_CACHE_DIR"]

/-- The path of the template that a command line names. -/
def templatePath? (args : List String) : Option String :=
  match Cli.Invocation.read args with
  | .ok ⟨_, _, .render path _⟩ | .ok ⟨_, _, .build path _ _ _⟩ | .ok ⟨_, _, .run path _ _ _⟩ =>
      some path
  | _ => none

/-- A tree with one file in it, and the directory that paths start from. -/
def treeWith (cwd path : String) (bytes : List UInt8) : FileTree :=
  let place := (Path.components path).dropLast
  let parent := FileTree.pathThrough (Path.isAbsolute path) place
  let files := { (FileTree.empty.makeDirectories cwd).2 with cwd := Path.components cwd }
  let files := (files.makeDirectories parent).2
  match files.writeFile path bytes with
  | .ok files => files
  | .error _ => files

/-- What is printed for a notice. -/
def noticeText : Cli.Notice → String
  | .event e => s!"{e.level.name}: {e.message}\n"
  | .diagnostic d =>
      let note := (d.note.map fun n => s!"note: {n}\n").getD ""
      s!"error: {d.message}\n  at {d.sourceId}, bytes {d.span.text}\n{note}"
  | .failure f => f.text
  | .crash e => s!"{e.message}\n"
  | .usage _ => s!"error: invalid arguments\n\n{Cli.helpText}"

/-- Reads a file; nothing comes of one that cannot be read. -/
def readTemplate (path : String) : IO (Option (List UInt8)) := do
  try
    return some (← IO.FS.readBinFile path).toList
  catch _ =>
    return none

end Program
end Loopsmith

open Loopsmith in
def main (args : List String) : IO UInt32 := do
  let values ← Program.settingNames.filterMapM fun name => do
    return (← IO.getEnv name).map fun value => (name, value)
  let cwd := (← IO.currentDir).toString
  let home ← IO.getEnv "HOME"
  let path := Program.templatePath? args
  let files ← match path with
    | none => pure FileTree.empty
    | some path => do
        match ← Program.readTemplate path with
        | some bytes => pure (Program.treeWith cwd path bytes)
        | none => pure FileTree.empty
  let machine : Machine := ⟨files, 0, .empty, []⟩
  let ended := Cli.run (Program.host "/tmp") home (fun name => values.lookup name) args machine
  IO.print ended.stdout
  for notice in ended.notices do
    IO.eprint (Program.noticeText notice)
  return UInt32.ofNat ended.exitCode
