import Loopsmith.Proofs.Files.Directories
import Loopsmith.Proofs.Files.Names
import Loopsmith.Proofs.Pipeline.StoreCalls

/-!
# Where a build works

Every build works in a directory of its own, below a directory that all builds of a pipeline share
and that may have to be made first (`Workplace`).  What it writes there is decided by what it is for
(`Job`): the header, the source, the library and the log, named after the number of the build.

The compiler is another program, and what is assumed of it is that it writes to its target alone
(`Host.WritesTarget`).  Then a build is confined: from when its directory is made up to its end nothing has
changed but below that directory and in the store (`FileTree.Confined`).  Here a build is followed up to
when the compiler is started (`Job.Starts`); `Loopsmith.Proofs.Pipeline.Remains` follows it to its end.
-/

namespace Loopsmith

/-- The compiler writes to its target and nowhere else. -/
def Host.WritesTarget (host : Host) : Prop :=
  ∀ program leading source library files ended,
    host.toolchain program (Toolchain.compilerArguments leading source library) files = .ok ended →
      ended.files.cwd = files.cwd ∧
        ∀ q, ¬ Path.resolve files.cwd library <+: q → ended.files.node? q = files.node? q

/-- What a run of the compiler has to say for itself: what it printed, or why it did not start. -/
def Toolchain.captured (run : Toolchain) (command source library : String) (files : FileTree) :
    String :=
  match Command.parse? command with
  | none => "empty compiler command"
  | some c =>
      match run c.program (compilerArguments c.arguments source library) files with
      | .error reason => reason
      | .ok ended => String.ofList (Text.decodeLossy ended.output)

/-! ## Changes in a directory -/

namespace FileTree

/-- Nothing has changed but below `dir` and at the places `beyond`, and the directories that are
not below `dir` are still there. -/
structure Confined (dir : Place) (beyond : Place → Prop) (t t' : FileTree) : Prop where
  cwd : t'.cwd = t.cwd
  outside : ∀ q, ¬ dir <+: q → ¬ beyond q → t'.node? q = t.node? q
  directories : ∀ q, t.node? q = some .directory → (dir <+: q → q = dir) →
    t'.node? q = some .directory

/-- A directory that was just made: it can be reached, and there is nothing in it. -/
structure IsNew (t : FileTree) (path : String) : Prop where
  passes : t.Passes path
  directory : t.node? (Path.resolve t.cwd path) = some .directory
  empty : ∀ q, Path.resolve t.cwd path <+: q → q ≠ Path.resolve t.cwd path → t.node? q = none

namespace Confined

variable {dir : Place} {beyond : Place → Prop} {t t' t'' : FileTree}

theorem refl (dir : Place) (beyond : Place → Prop) (t : FileTree) : Confined dir beyond t t :=
  ⟨rfl, fun _ _ _ => rfl, fun _ h _ => h⟩

theorem trans (h : Confined dir beyond t t') (h' : Confined dir beyond t' t'') :
    Confined dir beyond t t'' := by
  refine ⟨h'.cwd.trans h.cwd, ?_, ?_⟩
  · intro q hdir hbeyond
    rw [h'.outside q hdir hbeyond, h.outside q hdir hbeyond]
  · intro q hq hdir
    exact h'.directories q (h.directories q hq hdir) hdir

/-- Writing a file in the directory. -/
theorem of_writeFile {path x : String} {bytes : List UInt8} (hx : Path.IsComponent x)
    (h : t.writeFile (Path.join path x) bytes = .ok t') (beyond : Place → Prop) :
    Confined (Path.resolve t.cwd path) beyond t t' := by
  obtain ⟨-, htakes, rfl⟩ := writeFile_eq_ok h
  rw [Path.resolve_join hx] at htakes ⊢
  have hnode := node?_set htakes (.file bytes)
  refine ⟨t.cwd_set _ _, ?_, ?_⟩
  · intro q hdir _
    have hne : q ≠ Path.resolve t.cwd path ++ [x] := by
      rintro rfl
      exact hdir (List.prefix_append _ _)
    rw [hnode, if_neg hne]
  · intro q hq _
    have hne : q ≠ Path.resolve t.cwd path ++ [x] := by
      rintro rfl
      exact htakes.2 hq
    rw [hnode, if_neg hne, hq]

/-- Changing what is at a name in the directory, and below it. -/
theorem of_below {x : String} (hcwd : t'.cwd = t.cwd)
    (h : ∀ q, ¬ dir ++ [x] <+: q → t'.node? q = t.node? q) (beyond : Place → Prop) :
    Confined dir beyond t t' := by
  refine ⟨hcwd, ?_, ?_⟩
  · intro q hdir _
    exact h q fun hq => hdir ((List.prefix_append _ _).trans hq)
  · intro q hq hdir
    rw [h q, hq]
    intro hbelow
    have heq := hdir ((List.prefix_append _ _).trans hbelow)
    rw [heq] at hbelow
    have hlength := hbelow.length_le
    simp at hlength

section

variable {path : String} (h : Confined (Path.resolve t.cwd path) beyond t t') (hnew : t.IsNew path)

include h hnew

theorem node?_directory : t'.node? (Path.resolve t.cwd path) = some .directory :=
  h.directories _ hnew.directory fun _ => rfl

/-- The directory can still be reached. -/
theorem passes : t'.Passes path := by
  refine ⟨by rw [h.cwd]; exact hnew.passes.1, ?_⟩
  rw [h.cwd]
  intro q hq
  have hdir := hnew.passes.2 q hq
  refine h.directories q hdir fun hpre => ?_
  by_contra hne
  rw [hnew.empty q hpre hne] at hdir
  cases hdir

theorem isDirectory : t'.isDirectory path = true := by
  rw [isDirectory_iff, h.cwd]
  exact ⟨h.passes hnew, h.node?_directory hnew⟩

end

end Confined

theorem node?_eq_none_of_isPrefix {t : FileTree} {p q : Place} (hp : t.node? p = none)
    (hpq : p <+: q) : t.node? q = none := by
  cases hq : t.node? q with
  | none => rfl
  | some n =>
      by_cases hne : p = q
      · rw [hne, hq] at hp
        cases hp
      · rw [node?_of_isPrefix hq hpq hne] at hp
        cases hp

theorem passes_of_makeDirectory_of_getLast? {t t' : FileTree} {path : String}
    (hlast : path.toList.getLast? ≠ some '/') (h : t.makeDirectory path = .ok t') :
    t.Passes path := by
  have hbare : Path.bare path = path := by rw [Path.bare, stripSlashes_of_getLast? hlast, ite_self]
  rw [← hbare]
  exact (passes_of_makeDirectory h).1

/-- A directory that is made is a new one. -/
theorem IsNew.of_makeDirectory {t t' : FileTree} {path : String}
    (hlast : path.toList.getLast? ≠ some '/') (h : t.makeDirectory path = .ok t') :
    t'.cwd = t.cwd ∧ t'.IsNew path ∧ t.node? (Path.resolve t.cwd path) = none ∧
      ∀ q, ¬ Path.resolve t.cwd path <+: q → t'.node? q = t.node? q := by
  obtain ⟨hspelled, hpassed⟩ := passes_of_makeDirectory_of_getLast? hlast h
  obtain ⟨-, htakes, hnone, rfl⟩ := passes_of_makeDirectory h
  have hnode := node?_set htakes .directory
  refine ⟨t.cwd_set _ _, ⟨⟨?_, ?_⟩, ?_, ?_⟩, hnone, ?_⟩
  · rwa [cwd_set]
  · rw [cwd_set]
    intro q hq
    have hdir := hpassed q hq
    have hne : q ≠ Path.resolve t.cwd path := by
      rintro rfl
      rw [hnone] at hdir
      cases hdir
    rw [hnode, if_neg hne, hdir]
  · rw [cwd_set, hnode, if_pos rfl]
  · rw [cwd_set]
    intro q hpre hne
    rw [hnode, if_neg hne]
    exact htakes.node?_below hpre (Ne.symm hne)
  · intro q hpre
    have hne : q ≠ Path.resolve t.cwd path := by
      rintro rfl
      exact hpre (List.prefix_refl _)
    rw [hnode, if_neg hne]

/-- What is not missing on the way to a directory that is made is left as it was. -/
theorem node?_makeDirectories_or (t : FileTree) (path : String) (q : Place) :
    (t.makeDirectories path).2.node? q = t.node? q ∨ q ∈ Path.way t.cwd path ∧
      t.node? q = none ∧ (t.makeDirectories path).2.node? q = some .directory := by
  by_cases hway : q ∈ Path.way t.cwd path
  · exact ((Widened.makeDirectories t path).node q).imp_right fun h => ⟨hway, h⟩
  · exact .inl (node?_makeDirectories t path hway)

end FileTree

/-! ## What a build is given -/

/-- The name of a file of build number `n`. -/
def specName (n : Nat) (extension : String) : String :=
  s!"spec_{n}.{extension}"

theorem isComponent_specName (n : Nat) {extension : String} (h : '/' ∉ extension.toList) :
    Path.IsComponent (specName n extension) := by
  change Path.IsComponent ("spec_" ++ toString n ++ "." ++ extension)
  refine Path.isComponent_of_head ?_ ⟨'s', by simp, by decide⟩
  simp only [String.toList_append, List.mem_append, not_or]
  exact ⟨⟨⟨by decide, slash_not_mem_toString n⟩, by decide⟩, h⟩

theorem utf8ByteSize_specName_le {n k : Nat} (hk : 0 < k) (h : n < 10 ^ k) (extension : String) :
    (specName n extension).utf8ByteSize ≤ 6 + k + extension.utf8ByteSize := by
  have hdigits := FileTree.utf8ByteSize_toString_le hk h
  have hfive : "spec_".utf8ByteSize = 5 := rfl
  have hone : ".".utf8ByteSize = 1 := rfl
  change ("spec_" ++ toString n ++ "." ++ extension).utf8ByteSize ≤ _
  rw [String.utf8ByteSize_append, String.utf8ByteSize_append, String.utf8ByteSize_append]
  omega

theorem nul_not_mem_specName (n : Nat) {extension : String} (h : '\x00' ∉ extension.toList) :
    '\x00' ∉ (specName n extension).toList := by
  change '\x00' ∉ ("spec_" ++ toString n ++ "." ++ extension).toList
  simp only [String.toList_append, List.mem_append, not_or]
  refine ⟨⟨⟨by decide, ?_⟩, by decide⟩, h⟩
  rw [Nat.toString_eq_ofList_toDigits, String.toList_ofList]
  intro hnul
  have hdigit := Nat.isDigit_of_mem_toDigits (by decide) (by decide) hnul
  contradiction

theorem specName_injective {n : Nat} {extension extension' : String}
    (h : specName n extension = specName n extension') : extension = extension' := by
  have hlist : ("spec_" ++ toString n ++ "." ++ extension).toList =
      ("spec_" ++ toString n ++ "." ++ extension').toList := congrArg String.toList h
  rw [String.toList_append, @String.toList_append _ extension'] at hlist
  exact String.toList_injective (List.append_cancel_left hlist)

theorem isComponent_header : Path.IsComponent Header.fileName :=
  ⟨by decide, by decide, by decide⟩

theorem header_ne_specName (n : Nat) (extension : String) :
    Header.fileName ≠ specName n extension := by
  intro h
  have hhead : Header.fileName.toList.head? =
      ("spec_" ++ toString n ++ "." ++ extension).toList.head? := congrArg (·.toList.head?) h
  simp [Header.fileName] at hhead

theorem slash_not_mem_sourceExtension (command : String) :
    '/' ∉ (Command.sourceExtension command).toList := by
  rw [Command.sourceExtension]
  split
  · decide
  · decide

theorem sourceExtension_ne (command : String) {extension : String} (hc : extension ≠ "c")
    (hcpp : extension ≠ "cpp") : Command.sourceExtension command ≠ extension := by
  rw [Command.sourceExtension]
  split
  · exact Ne.symm hcpp
  · exact Ne.symm hc

/-- What a build finds: the files, the number it gets, and where it is to work. -/
structure Workplace where
  files : FileTree
  number : Nat
  workDir : String

namespace Workplace

variable (w : Workplace)

/-- The path below which working directories are made. -/
def base : String :=
  Pipeline.absolute w.files w.workDir

/-- Where working directories are made. -/
def place : Place :=
  Path.resolve w.files.cwd w.base

/-- The files once the directories have been made that are missing on the way. -/
def made : FileTree :=
  (w.files.makeDirectories w.workDir).2

/-- The directory to work in is there, or can be made. -/
structure Ready : Prop where
  makes : (w.files.makeDirectories w.workDir).1 = .ok ()
  isDirectory : w.made.isDirectory w.base = true

theorem base_ne_empty : w.base ≠ "" := by
  rw [base, Pipeline.absolute, Path.join]
  split
  · next hor =>
      intro hempty
      rw [hempty] at hor
      simp [Path.isAbsolute] at hor
  · split
    · simp
    · simp

theorem cwd_made : w.made.cwd = w.files.cwd :=
  (FileTree.Widened.makeDirectories w.files w.workDir).cwd

end Workplace

/-- What a build works from: what it finds, the store, and what it is for. -/
structure Job extends Workplace where
  store : Option Store
  host : Host
  rendered : String
  command : String

namespace Job

/-- The files of the build if its directory has this name. -/
def layout (j : Job) (name : String) : Pipeline.Layout :=
  .of (Path.join j.base name) j.number j.command

/-- Where the store keeps what the build is for. -/
def Stored (j : Job) (q : Place) : Prop :=
  ∃ s part, j.store = some s ∧
    q = s.place j.files.cwd part (Store.fingerprint j.rendered j.command)

/-- There is at `q` what there was before the build, or a directory that was missing on the way to
where it works. -/
def SameAt (j : Job) (after : FileTree) (q : Place) : Prop :=
  after.node? q = j.files.node? q ∨ q ∈ Path.way j.files.cwd j.workDir ∧
    j.files.node? q = none ∧ after.node? q = some .directory

/-- Nothing is left of the build, wherever one looks. -/
def LeavesNothing (j : Job) (after : FileTree) : Prop :=
  ∀ q, ¬ j.Stored q → j.SameAt after q

/-- The files when the compiler is started: the missing directories have been made, the working
directory, and in it the header and the source. -/
def started (j : Job) (name : String) : FileTree :=
  ((j.made.set (j.place ++ [name]) .directory).set (j.place ++ [name, Header.fileName])
      (.file (Text.bytesOf Header.text))).set
    (j.place ++ [name, specName j.number (Command.sourceExtension j.command)])
    (.file (Text.bytesOf j.rendered))

/-- The one thing that is left of the build is a new directory, with the header, the source, and
the log of a compiler that was started on them.  There is no log if its path is too long; for the first
ten thousand builds it is no longer than the path of the header. -/
structure LeavesDirectory (j : Job) (after : FileTree) (name : String) : Prop where
  start : Pipeline.workspaceStart.toList <+: name.toList
  new : j.files.node? (j.place ++ [name]) = none
  directory : after.node? (j.place ++ [name]) = some .directory
  header : after.node? (j.place ++ [name, Header.fileName]) =
    some (.file (Text.bytesOf Header.text))
  source : after.node? (j.place ++ [name, specName j.number (Command.sourceExtension j.command)]) =
    some (.file (Text.bytesOf j.rendered))
  log : j.number < 10000 ∨ Path.Spelled j.files.cwd (j.layout name).log →
    after.node? (j.place ++ [name, specName j.number "log"]) =
      some (.file (Text.bytesOf (j.host.toolchain.captured j.command (j.layout name).source
        (j.layout name).library (j.started name))))
  others : ∀ q, ¬ j.place ++ [name] <+: q → ¬ j.Stored q → j.SameAt after q

/-- The tree when the directory of the build has just been made. -/
structure Opens (j : Job) (name : String) (t : FileTree) : Prop where
  ready : j.Ready
  name_eq : name = j.made.freeName j.base Pipeline.workspaceStart
  component : Path.IsComponent name
  start : Pipeline.workspaceStart.toList <+: name.toList
  cwd : t.cwd = j.files.cwd
  isNew : t.IsNew (Path.join j.base name)
  tree_eq : t = j.made.set (j.place ++ [name]) .directory
  free : j.made.node? (j.place ++ [name]) = none
  outside : ∀ q, ¬ j.place ++ [name] <+: q → t.node? q = j.made.node? q

theorem sameAt_of_made {j : Job} {after : FileTree} {q : Place}
    (h : after.node? q = j.made.node? q) : j.SameAt after q := by
  rw [SameAt, h]
  exact j.files.node?_makeDirectories_or j.workDir q

/-- There is nothing left but what was made on the way, the files of the store, and `extra`. -/
structure Leaves (j : Job) (extra : Place → Prop) (after : FileTree) : Prop where
  cwd : after.cwd = j.files.cwd
  node : ∀ q, ¬ extra q → ¬ j.Stored q → after.node? q = j.made.node? q

theorem Leaves.nothing {j : Job} {after : FileTree} (h : j.Leaves (fun _ => False) after) :
    j.LeavesNothing after :=
  fun q hq => sameAt_of_made (h.node q id hq)

namespace Opens

variable {j : Job} {name : String} {t t' : FileTree}

theorem missing (h : j.Opens name t) : j.files.node? (j.place ++ [name]) = none := by
  rcases j.files.node?_makeDirectories_or j.workDir (j.place ++ [name]) with heq | ⟨-, hnone, -⟩
  · rw [← heq]
    exact h.free
  · exact hnone

theorem resolve_eq (h : j.Opens name t) :
    Path.resolve t.cwd (Path.join j.base name) = j.place ++ [name] := by
  rw [h.cwd]
  exact Path.resolve_join h.component j.files.cwd j.base

theorem resolve_file (h : j.Opens name t) (hcwd : t'.cwd = t.cwd) {x : String}
    (hx : Path.IsComponent x) :
    Path.resolve t'.cwd (Path.join (Path.join j.base name) x) = j.place ++ [name, x] := by
  rw [Path.resolve_join hx, hcwd, h.resolve_eq, List.append_assoc]
  rfl

variable (h : j.Opens name t) (hconfined : FileTree.Confined (j.place ++ [name]) j.Stored t t')

include h hconfined

theorem isDirectory : t'.isDirectory (Path.join j.base name) = true := by
  rw [← h.resolve_eq] at hconfined
  exact hconfined.isDirectory h.isNew

theorem node?_place : t'.node? (j.place ++ [name]) = some .directory := by
  rw [← h.resolve_eq] at hconfined ⊢
  exact hconfined.node?_directory h.isNew

/-- A name in the directory can be reached if the path is not too long. -/
theorem passes_file {x : String} (hx : Path.IsComponent x)
    (hspelled : Path.Spelled j.files.cwd (Path.join (Path.join j.base name) x)) :
    t'.Passes (Path.join (Path.join j.base name) x) := by
  refine (FileTree.passes_join_iff hx (Path.join_ne_empty h.component j.base)
    (Path.getLast?_join h.component j.base)).2 ⟨?_, ?_⟩
  · rwa [hconfined.cwd, h.cwd]
  · exact h.isDirectory hconfined

/-- Whatever was done in the directory, it can be removed. -/
theorem remove :
    t'.remove (Path.join j.base name) = .ok (t'.drop (j.place ++ [name])) := by
  have hnode := h.node?_place hconfined
  rw [← h.resolve_eq, ← hconfined.cwd] at hnode ⊢
  rw [← h.resolve_eq] at hconfined
  exact (hconfined.passes h.isNew).remove hnode

/-- And then nothing is left of it. -/
theorem leaves_drop : j.Leaves (fun _ => False) (t'.drop (j.place ++ [name])) := by
  refine ⟨(t'.cwd_withTop _).trans (hconfined.cwd.trans h.cwd), fun q _ hq => ?_⟩
  rw [t'.node?_drop (by simp)]
  by_cases hpre : j.place ++ [name] <+: q
  · rw [if_pos hpre, FileTree.node?_eq_none_of_isPrefix h.free hpre]
  · rw [if_neg hpre, hconfined.outside q hpre hq]
    exact h.outside q hpre

/-- As long as it is there, there is nothing else. -/
theorem leaves : j.Leaves (j.place ++ [name] <+: ·) t' := by
  refine ⟨hconfined.cwd.trans h.cwd, fun q hpre hq => ?_⟩
  rw [hconfined.outside q hpre hq]
  exact h.outside q hpre

end Opens

/-- The tree when the compiler is started: there are the sources in the directory, and nothing
else. -/
structure Starts (j : Job) (name : String) (t t' : FileTree) : Prop where
  confined : FileTree.Confined (j.place ++ [name]) j.Stored t t'
  tree_eq : t' = j.started name
  header : t'.node? (j.place ++ [name, Header.fileName]) = some (.file (Text.bytesOf Header.text))
  source : t'.node? (j.place ++ [name, specName j.number (Command.sourceExtension j.command)]) =
    some (.file (Text.bytesOf j.rendered))
  others : ∀ x, x ≠ Header.fileName →
    x ≠ specName j.number (Command.sourceExtension j.command) →
      t'.node? (j.place ++ [name, x]) = none
  readHeader : t'.readFile (j.layout name).header = .ok (Text.bytesOf Header.text)
  readSource : t'.readFile (j.layout name).source = .ok (Text.bytesOf j.rendered)

/-- No file in a working directory is one of the store. -/
theorem Opens.ne_stored {j : Job} {name : String} {t : FileTree} (h : j.Opens name t) (x : String)
    (s : Store) (part : Store.Part) (key : String) :
    j.place ++ [name, x] ≠ s.place j.files.cwd part key := by
  intro heq
  have hhead : part.folder.toList.head? ≠ some 'd' := by
    cases part <;> decide
  rw [Store.place_eq, Store.Part.placeIn, Store.Part.shelf, List.append_assoc] at heq
  obtain ⟨hname, -⟩ := List.cons.inj (List.append_inj' heq rfl).2
  obtain ⟨rest, hrest⟩ := h.start
  rw [← hname, ← hrest] at hhead
  exact hhead rfl

/-- A log is no longer than the header, for the first ten thousand builds. -/
theorem Opens.spelled_log {j : Job} {name : String} {t t' : FileTree} (h : j.Opens name t)
    (hstarts : j.Starts name t t') (hn : j.number < 10000) :
    Path.Spelled j.files.cwd (j.layout name).log := by
  have hheader : Path.Spelled j.files.cwd (j.layout name).header := by
    have hspelled := (FileTree.readFile_eq_ok_iff.1 hstarts.readHeader).1.1
    rwa [hstarts.confined.cwd, h.cwd] at hspelled
  have hnul : '\x00' ∉ name.toList ++ (specName j.number "log").toList := by
    refine fun hmem => (List.mem_append.1 hmem).elim (fun hname => ?_)
      (nul_not_mem_specName j.number (by decide))
    obtain ⟨before, hbefore⟩ := Path.exists_join_eq_append j.base
    refine hheader.no_nul ?_
    rw [show (j.layout name).header = Path.join (Path.join j.base name) Header.fileName from rfl,
      Path.toList_join isComponent_header (Path.join_ne_empty h.component _)
        (Path.getLast?_join h.component _), hbefore name h.component, String.toList_append]
    simp [hname]
  refine hheader.within_of_le j.base_ne_empty h.component h.component isComponent_header
    (isComponent_specName j.number (by decide)) hnul (le_refl _) ?_
  exact (utf8ByteSize_specName_le (k := 4) (by decide) hn "log").trans (by decide)

end Job

namespace Pipeline

open FileTree (Confined IsNew)

/-- What a build of a pipeline finds. -/
def workplace (p : Pipeline) (host : Host) (m : Machine) : Workplace :=
  ⟨m.files, m.nextStem, p.workDir.getD host.temporaryDir⟩

/-- What a build of a pipeline works from. -/
def job (p : Pipeline) (host : Host) (rendered command : String) (m : Machine) : Job :=
  ⟨p.workplace host m, p.store, host, rendered, command⟩

/-! ## Up to the compiler -/

theorem start_numbered (n : Nat) :
    workspaceStart.toList <+: (FileTree.numbered workspaceStart n).toList := by
  rw [FileTree.numbered, String.toList_append, String.toList_append, List.append_assoc]
  exact List.prefix_append _ _

/-- If no working directory can be made, nothing is left but what was made on the way. -/
theorem eq_made_of_makeWorkspace {p : Pipeline} {host : Host} {m : Machine} {t : FileTree}
    {e : SpecializationError} (h : p.makeWorkspace host m.files = (.error e, t))
    (rendered command : String) : t = (p.job host rendered command m).made := by
  unfold makeWorkspace at h
  dsimp only at h
  rw [Workplace.made, job, workplace]
  split at h
  · next hparent =>
      cases h
      rw [hparent]
  · next hparent =>
      split at h
      · cases h
        rw [hparent]
      · cases h

theorem leaves_of_makeWorkspace {p : Pipeline} {host : Host} {m : Machine} {t : FileTree}
    {e : SpecializationError} (h : p.makeWorkspace host m.files = (.error e, t))
    (rendered command : String) :
    (p.job host rendered command m).Leaves (fun _ => False) t := by
  rw [eq_made_of_makeWorkspace h rendered command]
  exact ⟨Workplace.cwd_made _, fun _ _ _ => rfl⟩

/-- A working directory is new, and nothing else has changed but for what was missing. -/
theorem opens_of_makeWorkspace {p : Pipeline} {host : Host} {m : Machine} {t : FileTree}
    {dir : String} (h : p.makeWorkspace host m.files = (.ok dir, t)) (rendered command : String) :
    ∃ name, dir = Path.join (p.workplace host m).base name ∧
      (p.job host rendered command m).Opens name t := by
  have hmade : (p.workplace host m).made =
      (m.files.makeDirectories (p.workDir.getD host.temporaryDir)).2 := rfl
  have hcwd := (p.workplace host m).cwd_made
  unfold makeWorkspace at h
  dsimp only at h
  split at h
  · cases h
  · next t₁ hparent =>
      rw [hparent] at hmade
      rw [hmade] at hcwd
      dsimp only at hmade hcwd
      split at h
      · cases h
      · next t₂ hmake =>
          have hbase : absolute t₁ (p.workDir.getD host.temporaryDir) =
              (p.workplace host m).base := by
            rw [Workplace.base, absolute, absolute, hcwd]
            rfl
          rw [hbase] at h hmake
          generalize hn : t₁.freeName (p.workplace host m).base workspaceStart = name
            at h hmake
          obtain ⟨n, rfl⟩ : ∃ n, name = FileTree.numbered workspaceStart n := ⟨_, hn.symm⟩
          obtain ⟨hdir, rfl⟩ := Prod.mk.inj h
          obtain rfl := Except.ok.inj hdir
          have hlast := Path.getLast?_join (isComponent_numbered n)
            (p.workplace host m).base
          have hplace := Path.resolve_join (isComponent_numbered n)
            (p.workplace host m).files.cwd (p.workplace host m).base
          obtain ⟨hcwd₂, hnew, hnone, houtside⟩ := IsNew.of_makeDirectory hlast hmake
          have htree := (FileTree.passes_of_makeDirectory hmake).2.2.2
          rw [hcwd, hplace, ← hmade] at hnone htree
          rw [hcwd, hplace, ← hmade] at houtside
          have hready : (p.workplace host m).Ready := by
            refine ⟨congrArg Prod.fst hparent, ?_⟩
            rw [hmade]
            exact ((FileTree.passes_join_iff_of_ne_empty (isComponent_numbered n)
              (p.workplace host m).base_ne_empty).1 (FileTree.passes_of_makeDirectory_of_getLast?
                hlast hmake)).2
          rw [← hmade] at hn
          exact ⟨_, rfl, hready, hn.symm, isComponent_numbered n, start_numbered n,
            hcwd₂.trans hcwd, hnew, htree, hnone, houtside⟩

end Pipeline

namespace Job.Opens

open FileTree (Confined)
open Pipeline

variable {j : Job} {name : String} {t t' : FileTree}

theorem eq_set_of_writeFile (h : j.Opens name t) (hcwd : t'.cwd = t.cwd) {t'' : FileTree}
    {x : String} {bytes : List UInt8} (hx : Path.IsComponent x)
    (hwrite : t'.writeFile (Path.join (Path.join j.base name) x) bytes = .ok t'') :
    t'' = t'.set (j.place ++ [name, x]) (.file bytes) := by
  rw [(FileTree.writeFile_eq_ok hwrite).2.2, h.resolve_file hcwd hx]

/-- Writing a file in the directory adds that file. -/
theorem writeFile (h : j.Opens name t) (hconfined : Confined (j.place ++ [name]) j.Stored t t')
    {t'' : FileTree} {x : String} {bytes : List UInt8} (hx : Path.IsComponent x)
    (hwrite : t'.writeFile (Path.join (Path.join j.base name) x) bytes = .ok t'') :
    Confined (j.place ++ [name]) j.Stored t t'' ∧
      ∀ q, t''.node? q = if q = j.place ++ [name, x] then some (.file bytes) else t'.node? q := by
  have hfirst := Confined.of_writeFile hx hwrite j.Stored
  rw [hconfined.cwd, h.resolve_eq] at hfirst
  obtain ⟨-, htakes, rfl⟩ := FileTree.writeFile_eq_ok hwrite
  rw [h.resolve_file hconfined.cwd hx] at htakes hfirst ⊢
  exact ⟨hconfined.trans hfirst, FileTree.node?_set htakes (.file bytes)⟩

/-- A name that is free can be given to a file, if the path is not too long. -/
theorem exists_writeFile (h : j.Opens name t)
    (hconfined : Confined (j.place ++ [name]) j.Stored t t') {x : String} (hx : Path.IsComponent x)
    (hspelled : Path.Spelled j.files.cwd (Path.join (Path.join j.base name) x))
    (hnone : t'.node? (j.place ++ [name, x]) = none) (bytes : List UInt8) :
    ∃ t'', t'.writeFile (Path.join (Path.join j.base name) x) bytes = .ok t'' := by
  rw [← h.resolve_file hconfined.cwd hx] at hnone
  have hwrite := (h.passes_file hconfined hx hspelled).writeFile (Path.getLast?_join hx _)
    (by rw [hnone]; simp) bytes
  exact ⟨_, hwrite⟩

/-- A file that can be written in the directory can be read, as long as it is there. -/
theorem readFile (h : j.Opens name t) (hconfined : Confined (j.place ++ [name]) j.Stored t t')
    {x : String} (hx : Path.IsComponent x) {bytes : List UInt8}
    (hspelled : Path.Spelled j.files.cwd (Path.join (Path.join j.base name) x))
    (hnode : t'.node? (j.place ++ [name, x]) = some (.file bytes)) :
    t'.readFile (Path.join (Path.join j.base name) x) = .ok bytes := by
  rw [FileTree.readFile_eq_ok_iff, h.resolve_file hconfined.cwd hx]
  exact ⟨h.passes_file hconfined hx hspelled, hnode⟩

/-- When the sources have been written, they are what there is in the directory. -/
theorem writeSources (h : j.Opens name t)
    (hwrite : Pipeline.writeSources (j.layout name) j.rendered t = .ok t') :
    j.Starts name t t' := by
  unfold Pipeline.writeSources at hwrite
  split at hwrite
  · cases hwrite
  · next t₁ hheader =>
      split at hwrite
      · cases hwrite
      · next t₂ hsource =>
          cases hwrite
          have hx := isComponent_specName j.number (slash_not_mem_sourceExtension j.command)
          obtain ⟨hfirst, hnode₁⟩ := h.writeFile (.refl _ _ t) isComponent_header hheader
          obtain ⟨hboth, hnode₂⟩ := h.writeFile hfirst hx hsource
          have hspelled := (FileTree.writeFile_eq_ok hheader).1.1
          have hspelled' := (FileTree.writeFile_eq_ok hsource).1.1
          rw [h.cwd] at hspelled
          rw [hfirst.cwd, h.cwd] at hspelled'
          have hne := header_ne_specName j.number (Command.sourceExtension j.command)
          have hheader' : t'.node? (j.place ++ [name, Header.fileName]) =
              some (.file (Text.bytesOf Header.text)) := by
            rw [hnode₂, if_neg (by simpa using hne), hnode₁, if_pos rfl]
          have hsource' : t'.node?
              (j.place ++ [name, specName j.number (Command.sourceExtension j.command)]) =
              some (.file (Text.bytesOf j.rendered)) := by
            rw [hnode₂, if_pos rfl]
          refine ⟨hboth, ?_, hheader', hsource', ?_,
            h.readFile hboth isComponent_header hspelled hheader',
            h.readFile hboth hx hspelled' hsource'⟩
          · rw [h.eq_set_of_writeFile hfirst.cwd hx hsource,
              h.eq_set_of_writeFile rfl isComponent_header hheader, h.tree_eq, started]
          · intro x hxheader hxsource
            rw [hnode₂, if_neg (by simpa using hxsource), hnode₁, if_neg (by simpa using hxheader)]
            refine h.isNew.empty _ ?_ ?_
            · rw [h.resolve_eq]
              exact ⟨[x], by simp⟩
            · rw [h.resolve_eq]
              simp

end Job.Opens

end Loopsmith
