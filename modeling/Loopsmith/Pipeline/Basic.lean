import Loopsmith.Abi.Header
import Loopsmith.Host
import Loopsmith.Settings.Basic
import Loopsmith.Store.Basic

/-!
# From a rendered source to a loaded library

The pipeline asks the store first, if there is one.  A library found there saves the
compiler; anything wrong with the store is reported and otherwise ignored, so having a
store can never be worse than having none.

Failing that, the source is written to a directory of its own, compiled there and
loaded from there.  The directory does not outlive the build, whatever comes of it,
unless intermediate files are to be kept; then it stays from the moment the compiler
has been asked for.
-/

namespace Loopsmith

inductive Origin where
  | compiled
  | store
  deriving DecidableEq, Repr

def Origin.name : Origin → String
  | compiled => "Compiled"
  | store => "Store"

/-- A loaded library. -/
structure Artifact where
  entry : EntryPoint
  library : String
  origin : Origin
  deriving DecidableEq, Repr

structure Pipeline where
  workDir : Option String
  saveIntermediates : Bool
  store : Option Store
  counts : PipelineCounts := {}
  /-- How many libraries the loader was asked for. -/
  loads : Nat := 0
  deriving DecidableEq, Repr

namespace Pipeline

/-- The pipeline of some settings.  A store that cannot be opened is reported and left
out. -/
def ofSettings (settings : Settings) (m : Machine) : Pipeline × Machine :=
  let plain : Pipeline :=
    { workDir := settings.workDir, saveIntermediates := settings.saveIntermediates, store := none }
  match settings.storeRoot with
  | none => (plain, m)
  | some root =>
      match Store.openAt root m.files with
      | (.ok s, files) =>
          ({ plain with store := some s }, Machine.report { m with files } (.storeOpened root))
      | (.error e, files) =>
          (plain, Machine.report { m with files } (.storeDisabled root e.message))

/-! ## Loading -/

/-- What the loader reports on its way to a result.  A library without an entry point is
unloaded again. -/
def loadEvents (library : String) : Except LoadFailure EntryPoint → List Event
  | .ok _ => [.libraryLoaded library]
  | .error e => if e.loaded then [.libraryLoaded library, .libraryUnloaded library] else []

/-- Loads the library at a path. -/
def link (p : Pipeline) (host : Host) (library : String) (origin : Origin) (m : Machine) :
    Except SpecializationError Artifact × Pipeline × Machine :=
  let loaded := host.load p.loads m.files library
  let asked := { p with loads := p.loads + 1 }
  let m := m.reportAll (loadEvents library loaded)
  match loaded with
  | .error e => (.error (.link library e.reason), asked, m)
  | .ok entry =>
      (.ok ⟨entry, library, origin⟩,
        { asked with counts := { p.counts with links := p.counts.links + 1 } }, m)

/-- Loads the stored library of a key, if there is one that can be used. -/
def linkStored (p : Pipeline) (host : Host) (s : Store) (key : String) (m : Machine) :
    Option Artifact × Pipeline × Machine :=
  match s.lookup m.files key with
  | .error e => (none, p, m.report (.storeLookupFailed key e.message))
  | .ok none =>
      (none, p, m.reportAll ((s.missingLibrary? m.files key).toList.map .storedLibraryMissing))
  | .ok (some found) =>
      match p.link host found.metadata.binary .store m with
      | (.error e, p, m) => (none, p, m.report (.storedLibraryUnusable key e.message))
      | (.ok a, p, m) =>
          (some a, { p with counts := { p.counts with storeHits := p.counts.storeHits + 1 } },
            m.report (.storedLibraryReused key))

/-- Stores a library that was just built. -/
def keep (host : Host) (s : Store) (rendered command library : String) (m : Machine) : Machine :=
  let key := Store.fingerprint rendered command
  let milliseconds := host.duration "build" / 1000000
  match s.put m.files host.now key library command milliseconds rendered.utf8ByteSize with
  | (.ok found, files) =>
      Machine.report { m with files } (.libraryStored key found.metadata.binarySize)
  | (.error e, files) => Machine.report { m with files } (.storeFailed key e.message)

/-! ## Working directories -/

/-- How the names of working directories start. -/
def workspaceStart : String := "doping-"

/-- The path of a directory from the root. -/
def absolute (files : FileTree) (path : String) : String :=
  Path.join ("/" ++ String.intercalate "/" files.cwd) path

/-- Makes a new working directory. -/
def makeWorkspace (p : Pipeline) (host : Host) (files : FileTree) :
    Except SpecializationError String × FileTree :=
  let parent := p.workDir.getD host.temporaryDir
  match files.makeDirectories parent with
  | (.error e, files) => (.error (.file "create" parent e.message), files)
  | (.ok (), files) =>
      let base := absolute files parent
      let dir := Path.join base (files.freeName base workspaceStart)
      match files.makeDirectory dir with
      | .error e =>
          (.error (.file "create a working directory in" parent
            s!"{e.message} at path \"{dir}\""), files)
      | .ok files => (.ok dir, files)

/-- Removes a working directory without a word. -/
def discard (files : FileTree) (dir : String) : FileTree :=
  match files.remove dir with
  | .ok files => files
  | .error _ => files

/-- Keeps or removes a working directory after a build. -/
def finish (p : Pipeline) (dir : String) (m : Machine) : Machine :=
  if p.saveIntermediates then m.report (.intermediatesKept dir)
  else
    match m.files.remove dir with
    | .ok files => { m with files }
    | .error e => m.report (.intermediatesStuck dir e.message)

/-! ## Building -/

/-- The paths of one build. -/
structure Layout where
  dir : String
  header : String
  source : String
  library : String
  log : String
  deriving DecidableEq, Repr

/-- The layout of build number `n` in a directory. -/
def Layout.of (dir : String) (n : Nat) (command : String) : Layout :=
  let file (extension : String) : String := Path.join dir s!"spec_{n}.{extension}"
  { dir, header := Path.join dir Header.fileName,
    source := file (Command.sourceExtension command),
    library := file Store.libraryExtension, log := file "log" }

/-- Writes what the compiler reads. -/
def writeSources (l : Layout) (rendered : String) (files : FileTree) :
    Except SpecializationError FileTree :=
  match files.writeFile l.header (Text.bytesOf Header.text) with
  | .error e => .error (.file "write" l.header e.message)
  | .ok files =>
      match files.writeFile l.source (Text.bytesOf rendered) with
      | .error e => .error (.file "write" l.source e.message)
      | .ok files => .ok files

/-- What a compiler's log says. -/
def logText : Except SpecializationError String → String
  | .ok output => output
  | .error (.compile _ _ output) => output
  | .error _ => ""

/-- Writes the log of a build whose files are kept. -/
def writeLog (p : Pipeline) (l : Layout) (compiled : Except SpecializationError String)
    (m : Machine) : Machine :=
  if !p.saveIntermediates then m
  else
    match m.files.writeFile l.log (Text.bytesOf (logText compiled)) with
    | .ok files => { m with files }
    | .error e => m.report (.compilerLogFailed l.log e.message)

/-- Compiles the sources of a layout and loads the library. -/
def buildIn (p : Pipeline) (host : Host) (l : Layout) (rendered command : String) (m : Machine) :
    Except SpecializationError Artifact × Pipeline × Machine :=
  let p := { p with counts := { p.counts with compilations := p.counts.compilations + 1 } }
  let c := host.toolchain.compileShared command l.source l.library m.files
  let m := p.writeLog l c.result (Machine.reportAll { m with files := c.files } c.events)
  match c.result with
  | .error e => (.error e, p, p.finish l.dir m)
  | .ok _ =>
      let m := m.report (.libraryCompiled l.library (host.duration "compile" / 1000000))
      match p.link host l.library .compiled m with
      | (.error e, p, m) => (.error e, p, p.finish l.dir m)
      | (.ok a, p, m) =>
          let m := match p.store with
            | some s => keep host s rendered command l.library m
            | none => m
          (.ok a, p, p.finish l.dir m)

/-- Builds a library from a source. -/
def build (p : Pipeline) (host : Host) (rendered command : String) (m : Machine) :
    Except SpecializationError Artifact × Pipeline × Machine :=
  match p.makeWorkspace host m.files with
  | (.error e, files) => (.error e, p, { m with files })
  | (.ok dir, files) =>
      let l := Layout.of dir m.nextStem command
      let m := { m with files, nextStem := m.nextStem + 1 }
      match writeSources l rendered m.files with
      | .error e => (.error e, p, { m with files := discard m.files dir })
      | .ok files => p.buildIn host l rendered command { m with files }

/-- Finds or builds the library of a rendered source. -/
def compileAndLink (p : Pipeline) (host : Host) (rendered command : String) (m : Machine) :
    Except SpecializationError Artifact × Pipeline × Machine :=
  match p.store with
  | none => p.build host rendered command m
  | some s =>
      match p.linkStored host s (Store.fingerprint rendered command) m with
      | (some a, p, m) => (.ok a, p, m)
      | (none, p, m) => p.build host rendered command m

end Pipeline
end Loopsmith
