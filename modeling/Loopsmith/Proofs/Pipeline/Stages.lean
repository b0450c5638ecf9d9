import Loopsmith.Pipeline.Basic

/-!
# The stages of a build

A build that gets to its end goes through three moments: the sources are written and the
compiler is about to start, the compiler has ended and the loader is about to be asked for the
library, and the library has been loaded.  Statements about what was compiled or loaded are about
the files at these moments, which are gone when the build returns.  So each moment gets a name
here, and the build is put together again from them: `build_eq` and `buildIn_eq`.

What comes of a build is decided at the second moment, by the loader (`result_buildIn`).  What is
done afterwards, for the store and with the working directory, does not show in it.

Before all this the store is searched, which changes no file (`sameStart_linkStored`).
-/

namespace Loopsmith

/-- The error is one that a build can end with. -/
inductive SpecializationError.OfBuild : SpecializationError → Prop
  | file (action path reason : String) : OfBuild (.file action path reason)
  | compile (command : String) (status : Option Int) (output : String) :
      OfBuild (.compile command status output)
  | link (path reason : String) : OfBuild (.link path reason)

namespace Pipeline

open SpecializationError (OfBuild)

/-! ## Up to the compiler -/

/-- Makes a working directory and writes the sources: the layout and the machine with which the
compiler is started, or the error and the machine that the build ends with. -/
def prepare (p : Pipeline) (host : Host) (rendered command : String) (m : Machine) :
    Except (SpecializationError × Machine) (Layout × Machine) :=
  match p.makeWorkspace host m.files with
  | (.error e, files) => .error (e, { m with files })
  | (.ok dir, files) =>
      let l := Layout.of dir m.nextStem command
      match writeSources l rendered files with
      | .error e =>
          .error (e, { m with files := discard files dir, nextStem := m.nextStem + 1 })
      | .ok files => .ok (l, { m with files, nextStem := m.nextStem + 1 })

theorem build_eq (p : Pipeline) (host : Host) (rendered command : String) (m : Machine) :
    p.build host rendered command m =
      match p.prepare host rendered command m with
      | .error (e, m') => (.error e, p, m')
      | .ok (l, m') => p.buildIn host l rendered command m' := by
  unfold build prepare
  rcases p.makeWorkspace host m.files with ⟨e | dir, files⟩
  · rfl
  · dsimp only
    cases writeSources (Layout.of dir m.nextStem command) rendered files with
    | error e => rfl
    | ok files => rfl

/-! ## Up to the loader -/

/-- What the compiler does in a layout. -/
def compilation (host : Host) (l : Layout) (command : String) (files : FileTree) :
    Toolchain.Compilation :=
  host.toolchain.compileShared command l.source l.library files

/-- After the compiler the files are as they were, or as the program has left them. -/
theorem files_compilation (host : Host) (l : Layout) (command : String) (files : FileTree) :
    (compilation host l command files).files = files ∨
      ∃ c ended, Command.parse? command = some c ∧
        host.toolchain c.program
          (Toolchain.compilerArguments c.arguments l.source l.library) files = .ok ended ∧
        (compilation host l command files).files = ended.files := by
  unfold compilation Toolchain.compileShared
  cases Command.parse? command with
  | none => exact .inl rfl
  | some c =>
      dsimp only
      cases hrun : host.toolchain c.program
          (Toolchain.compilerArguments c.arguments l.source l.library) files with
      | error reason => exact .inl rfl
      | ok ended => exact .inr ⟨c, ended, rfl, hrun, rfl⟩

/-- The machine when the compiler has ended and its log has been written. -/
def compiled (p : Pipeline) (host : Host) (l : Layout) (command : String) (m : Machine) :
    Machine :=
  let c := compilation host l command m.files
  p.writeLog l c.result (Machine.reportAll { m with files := c.files } c.events)

/-- Adds one to the number of times that the compiler was asked. -/
def countCompilation (p : Pipeline) : Pipeline :=
  { p with counts := { p.counts with compilations := p.counts.compilations + 1 } }

/-- Puts a library that was just loaded into the store, if there is one. -/
def keepIfStore (p : Pipeline) (host : Host) (rendered command library : String) (m : Machine) :
    Machine :=
  match p.store with
  | some s => keep host s rendered command library m
  | none => m

theorem buildIn_eq (p : Pipeline) (host : Host) (l : Layout) (rendered command : String)
    (m : Machine) :
    p.buildIn host l rendered command m =
      match (compilation host l command m.files).result with
      | .error e => (.error e, p.countCompilation, p.finish l.dir (p.compiled host l command m))
      | .ok _ =>
          match p.countCompilation.link host l.library .compiled
            ((p.compiled host l command m).report
              (.libraryCompiled l.library (host.duration "compile" / 1000000))) with
          | (.error e, p', m') => (.error e, p', p'.finish l.dir m')
          | (.ok a, p', m') =>
              (.ok a, p', p'.finish l.dir (p'.keepIfStore host rendered command l.library m')) := by
  rfl

/-! ## What comes of it -/

theorem files_link (p : Pipeline) (host : Host) (library : String) (origin : Origin)
    (m : Machine) : (p.link host library origin m).2.2.files = m.files := by
  unfold link
  cases host.load p.loads m.files library with
  | error e => rfl
  | ok entry => rfl

theorem result_link (p : Pipeline) (host : Host) (library : String) (origin : Origin)
    (m : Machine) :
    (p.link host library origin m).1 =
      match host.load p.loads m.files library with
      | .error e => .error (.link library e.reason)
      | .ok entry => .ok ⟨entry, library, origin⟩ := by
  unfold link
  cases host.load p.loads m.files library with
  | error e => rfl
  | ok entry => rfl

/-- A build succeeds if the compiler does and the loader takes the library. -/
theorem result_buildIn (p : Pipeline) (host : Host) (l : Layout) (rendered command : String)
    (m : Machine) :
    (p.buildIn host l rendered command m).1 =
      match (compilation host l command m.files).result with
      | .error e => .error e
      | .ok _ =>
          match host.load p.loads (p.compiled host l command m).files l.library with
          | .error e => .error (.link l.library e.reason)
          | .ok entry => .ok ⟨entry, l.library, .compiled⟩ := by
  rw [buildIn_eq]
  cases (compilation host l command m.files).result with
  | error e => rfl
  | ok output =>
      dsimp only
      have hlink := result_link p.countCompilation host l.library .compiled
        ((p.compiled host l command m).report
          (.libraryCompiled l.library (host.duration "compile" / 1000000)))
      rcases h : p.countCompilation.link host l.library .compiled _ with ⟨e | a, p', m'⟩
      · rw [h] at hlink
        exact hlink
      · rw [h] at hlink
        exact hlink

/-! ## What can go wrong -/

theorem ofBuild_of_compileShared {run : Toolchain} {command source library : String}
    {files : FileTree} {e : SpecializationError}
    (h : (run.compileShared command source library files).result = .error e) : OfBuild e := by
  unfold Toolchain.compileShared at h
  split at h
  · cases h
    exact .compile ..
  · dsimp only at h
    split at h
    · cases h
      exact .compile ..
    · dsimp only at h
      split at h
      · cases h
        exact .compile ..
      · split at h
        · cases h
          exact .compile ..
        · cases h

theorem ofBuild_of_prepare {p : Pipeline} {host : Host} {rendered command : String}
    {m m' : Machine} {e : SpecializationError}
    (h : p.prepare host rendered command m = .error (e, m')) : OfBuild e := by
  unfold prepare at h
  split at h
  · next hw =>
      cases h
      unfold makeWorkspace at hw
      dsimp only at hw
      split at hw
      · cases hw
        exact .file ..
      · split at hw
        · cases hw
          exact .file ..
        · cases hw
  · dsimp only at h
    split at h
    · next hs =>
        cases h
        unfold writeSources at hs
        split at hs
        · cases hs
          exact .file ..
        · split at hs
          · cases hs
            exact .file ..
          · cases hs
    · cases h

theorem ofBuild_of_build {p : Pipeline} {host : Host} {rendered command : String} {m : Machine}
    {e : SpecializationError} (h : (p.build host rendered command m).1 = .error e) :
    OfBuild e := by
  rw [build_eq] at h
  cases hp : p.prepare host rendered command m with
  | error r =>
      rw [hp] at h
      cases h
      exact ofBuild_of_prepare hp
  | ok r =>
      rw [hp] at h
      dsimp only at h
      rw [result_buildIn] at h
      split at h
      · next hc =>
          cases h
          exact ofBuild_of_compileShared hc
      · split at h
        · cases h
          exact .link ..
        · cases h

/-- **A build fails over a file, over the compiler or over the library.** -/
theorem ofBuild_of_compileAndLink {p : Pipeline} {host : Host} {rendered command : String}
    {m : Machine} {e : SpecializationError}
    (h : (p.compileAndLink host rendered command m).1 = .error e) : OfBuild e := by
  unfold compileAndLink at h
  split at h
  · exact ofBuild_of_build h
  · split at h
    · cases h
    · exact ofBuild_of_build h

/-! ## Searching the store -/

/-- The settings, the files and the number of the next build are the same, so that a build
starts alike on both sides. -/
structure SameStart (p p' : Pipeline) (m m' : Machine) : Prop where
  workDir : p'.workDir = p.workDir
  saveIntermediates : p'.saveIntermediates = p.saveIntermediates
  files : m'.files = m.files
  nextStem : m'.nextStem = m.nextStem

theorem sameStart_link (p : Pipeline) (host : Host) (library : String) (origin : Origin)
    (m : Machine) :
    SameStart p (p.link host library origin m).2.1 m (p.link host library origin m).2.2 := by
  unfold link
  cases host.load p.loads m.files library with
  | error e => exact ⟨rfl, rfl, rfl, rfl⟩
  | ok entry => exact ⟨rfl, rfl, rfl, rfl⟩

theorem sameStart_linkStored (p : Pipeline) (host : Host) (s : Store) (key : String)
    (m : Machine) :
    SameStart p (p.linkStored host s key m).2.1 m (p.linkStored host s key m).2.2 := by
  unfold linkStored
  split
  · exact ⟨rfl, rfl, rfl, rfl⟩
  · exact ⟨rfl, rfl, rfl, rfl⟩
  · next found _ =>
      have h := sameStart_link p host found.metadata.binary .store m
      split
      · next hl =>
          rw [hl] at h
          exact ⟨h.workDir, h.saveIntermediates, h.files, h.nextStem⟩
      · next hl =>
          rw [hl] at h
          exact ⟨h.workDir, h.saveIntermediates, h.files, h.nextStem⟩

/-- A library that the search finds is one that was loaded from the store. -/
theorem origin_of_linkStored {p : Pipeline} {host : Host} {s : Store} {key : String} {m : Machine}
    {a : Artifact} (h : (p.linkStored host s key m).1 = some a) : a.origin = .store := by
  unfold linkStored at h
  split at h
  · cases h
  · cases h
  · next found _ =>
      have hlink := result_link p host found.metadata.binary .store m
      split at h
      · cases h
      · next hl =>
          rw [hl] at hlink
          cases h
          cases hload : host.load p.loads m.files found.metadata.binary with
          | error e =>
              rw [hload] at hlink
              cases hlink
          | ok entry =>
              rw [hload] at hlink
              cases hlink
              rfl

end Pipeline
end Loopsmith
