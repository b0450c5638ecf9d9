import Loopsmith.Host.Scripted
import Loopsmith.Proofs.Cli.Reports
import Loopsmith.Proofs.Pipeline.Remains

/-!
# The library that a build names

When a library has been built, the tool prints where it is, or that it is not there any more.  It
decides by the settings and by where the library came from.  Whether the library is there is decided
elsewhere: by the search of the store, by the compiler, by what is written after the compiler has
ended, and by the removal of the working directory.

The two agree (`build_names_library_iff_present`), whatever compiler there is and whatever it does
besides making the library.  A library that was found in the store was there when it was found, and
nothing is written afterwards.  A compiler has not succeeded if there is no library.  What is
written after that, the log and the copy for the store, has other names, so it leaves the library
where it is (`Keeps`); and a working directory that is removed takes the library with it.
-/

namespace Loopsmith

/-! ## A file that stays -/

namespace FileTree

/-- What is at a path is there afterwards, and can be reached if it could be. -/
structure Keeps (path : String) (t t' : FileTree) : Prop where
  cwd : t'.cwd = t.cwd
  passes : t.Passes path → t'.Passes path
  node : t'.node? (Path.resolve t.cwd path) = t.node? (Path.resolve t.cwd path)

namespace Keeps

variable {path : String} {t t' : FileTree}

theorem refl (path : String) (t : FileTree) : Keeps path t t :=
  ⟨rfl, id, rfl⟩

theorem hasPath (h : Keeps path t t') (hpath : t.hasPath path = true) :
    t'.hasPath path = true := by
  obtain ⟨hpasses, hnode⟩ := hasPath_iff.1 hpath
  rw [hasPath_iff, h.cwd, h.node]
  exact ⟨h.passes hpasses, hnode⟩

theorem readFile (h : Keeps path t t') {bytes : List UInt8} (hread : t.readFile path = .ok bytes) :
    t'.readFile path = .ok bytes := by
  obtain ⟨hpasses, hnode⟩ := readFile_eq_ok_iff.1 hread
  rw [readFile_eq_ok_iff, h.cwd, h.node]
  exact ⟨h.passes hpasses, hnode⟩

theorem of_directories (hcwd : t'.cwd = t.cwd)
    (hdirs : ∀ q, t.node? q = some .directory → t'.node? q = some .directory)
    (hnode : t'.node? (Path.resolve t.cwd path) = t.node? (Path.resolve t.cwd path)) :
    Keeps path t t' := by
  refine ⟨hcwd, fun hpasses => ?_, hnode⟩
  rw [Passes, hcwd]
  exact ⟨hpasses.1, fun q hq => hdirs q (hpasses.2 q hq)⟩

/-- Writing a file keeps what is at another place. -/
theorem of_writeFile {path' : String} {bytes : List UInt8}
    (hne : Path.resolve t.cwd path ≠ Path.resolve t.cwd path')
    (h : t.writeFile path' bytes = .ok t') : Keeps path t t' := by
  obtain ⟨-, htakes, rfl⟩ := writeFile_eq_ok h
  have hnode := node?_set htakes (.file bytes)
  refine of_directories (t.cwd_set _ _) (fun q hq => ?_) ((hnode _).trans (if_neg hne))
  rw [hnode, if_neg (by rintro rfl; exact htakes.2 hq), hq]

/-- So does storing a library, however far it gets. -/
theorem of_put {s : Store} {key : String} (hkey : Store.IsKey key)
    (hne : ∀ part, Path.resolve t.cwd path ≠ s.place t.cwd part key) (now : Timestamp)
    (library command : String) (ms length : Nat) :
    Keeps path t (s.put t now key library command ms length).2 := by
  rcases Store.put_course hkey library now command ms length with
    ⟨e, hput⟩ | ⟨bytes, progress, t', -, hreached, hput⟩
  · rw [hput]
    exact refl path t
  · have htree : (s.put t now key library command ms length).2 = t' := by
      rcases hput with ⟨-, e, hput⟩ | ⟨-, hput, -⟩
      · rw [hput]
      · rw [hput]
    rw [htree]
    exact of_directories hreached.cwd hreached.directories
      (hreached.node?_elsewhere fun part _ => hne part)

end Keeps

/-- What was below a directory is not there any more when it has been removed. -/
theorem hasPath_drop {t : FileTree} {dir path : String}
    (hdir : Path.resolve t.cwd dir ≠ [])
    (hbelow : Path.resolve t.cwd dir <+: Path.resolve t.cwd path) :
    (t.drop (Path.resolve t.cwd dir)).hasPath path = false := by
  rw [Bool.eq_false_iff, ne_eq, hasPath_iff, cwd_drop, t.node?_drop hdir, if_pos hbelow]
  rintro ⟨-, n, hn⟩
  cases hn

end FileTree

/-- There is no underscore in what the store calls its files. -/
theorem Store.Part.name_fingerprint_ne (part : Store.Part) (rendered command : String) (n : Nat)
    (extension : String) :
    part.name (Store.fingerprint rendered command) ≠ specName n extension := by
  have hdigits : ∀ c ∈ (Store.fingerprint rendered command).toList, c.isAlphanum = true :=
    fun c => Digest.isAlphanum_of_mem_sha1
  generalize Store.fingerprint rendered command = key at hdigits ⊢
  intro heq
  have hmem : '_' ∈ (specName n extension).toList := by
    change '_' ∈ ("spec_" ++ toString n ++ "." ++ extension).toList
    simp
  rw [← heq, part.toList_name, List.mem_append, List.mem_cons] at hmem
  rcases hmem with hkey | hdot | hextension
  · exact absurd (hdigits _ hkey) (by decide)
  · exact absurd hdot (by decide)
  · cases part with
    | library => exact absurd hextension (by decide)
    | staged => exact absurd hextension (by decide)
    | record => exact absurd hextension (by decide)

/-- The loader takes nothing but files. -/
def Host.LoadsFiles (host : Host) : Prop :=
  ∀ n files path entry, host.load n files path = .ok entry →
    ∃ bytes, files.readFile path = .ok bytes

namespace Pipeline

open FileTree (Keeps)

/-! ## The library of a build -/

theorem Layout.library_of (dir : String) (n : Nat) (command : String) :
    (Layout.of dir n command).library = Path.join dir (specName n Store.libraryExtension) := by
  simp only [Layout.of, specName]

theorem Layout.log_of (dir : String) (n : Nat) (command : String) :
    (Layout.of dir n command).log = Path.join dir (specName n "log") := by
  simp only [Layout.of, specName]

theorem Layout.dir_of (dir : String) (n : Nat) (command : String) :
    (Layout.of dir n command).dir = dir :=
  rfl

/-- The paths of a build in a directory that was made for it. -/
inductive Layout.Fresh : Layout → Prop
  | of (base name : String) (hname : Path.IsComponent name) (n : Nat) (command : String) :
      Fresh (.of (Path.join base name) n command)

theorem fresh_of_prepare {p : Pipeline} {host : Host} {rendered command : String} {m m' : Machine}
    {l : Layout} (h : p.prepare host rendered command m = .ok (l, m')) : l.Fresh := by
  unfold prepare at h
  split at h
  · cases h
  · next hmake =>
      obtain ⟨name, rfl, hopens⟩ := opens_of_makeWorkspace hmake rendered command
      dsimp only at h
      split at h
      · cases h
      · cases h
        exact .of _ name hopens.component _ _

namespace Layout.Fresh

variable {l : Layout}

theorem resolve_library (h : l.Fresh) (cwd : Place) :
    ∃ n, Path.resolve cwd l.library =
        Path.resolve cwd l.dir ++ [specName n Store.libraryExtension] ∧
      Path.resolve cwd l.log = Path.resolve cwd l.dir ++ [specName n "log"] := by
  cases h with
  | of base name hname n command =>
      rw [library_of, log_of, dir_of]
      exact ⟨n, Path.resolve_join (isComponent_specName n (by decide)) cwd _,
        Path.resolve_join (isComponent_specName n (by decide)) cwd _⟩

theorem resolve_dir_ne_nil (h : l.Fresh) (cwd : Place) : Path.resolve cwd l.dir ≠ [] := by
  cases h with
  | of base name hname n command =>
      rw [dir_of, Path.resolve_join hname]
      simp

/-- The log is another file. -/
theorem library_ne_log (h : l.Fresh) (cwd : Place) :
    Path.resolve cwd l.library ≠ Path.resolve cwd l.log := by
  obtain ⟨n, hlibrary, hlog⟩ := h.resolve_library cwd
  rw [hlibrary, hlog]
  intro heq
  have hname := specName_injective (List.cons.inj (List.append_inj' heq rfl).2).1
  exact absurd hname (by decide)

/-- So is everything that the store keeps. -/
theorem library_ne_place (h : l.Fresh) (cwd : Place) (s : Store) (part : Store.Part)
    (rendered command : String) :
    Path.resolve cwd l.library ≠ s.place cwd part (Store.fingerprint rendered command) := by
  obtain ⟨n, hlibrary, -⟩ := h.resolve_library cwd
  have hname := part.name_fingerprint_ne rendered command n Store.libraryExtension
  generalize Store.fingerprint rendered command = key at hname ⊢
  rw [hlibrary, Store.place]
  intro heq
  exact hname (List.cons.inj (List.append_inj' heq rfl).2).1.symm

/-- The library can be reached only if the directory is there. -/
theorem isDirectory (h : l.Fresh) {t : FileTree} (hlibrary : t.hasPath l.library = true) :
    t.isDirectory l.dir = true := by
  cases h with
  | of base name hname n command =>
      rw [library_of] at hlibrary
      rw [dir_of]
      exact ((FileTree.passes_join_iff (isComponent_specName n (by decide))
        (Path.join_ne_empty hname _) (Path.getLast?_join hname _)).1
          (FileTree.hasPath_iff.1 hlibrary).1).2

theorem slash_mem_library (h : l.Fresh) : '/' ∈ l.library.toList := by
  cases h with
  | of base name hname n command =>
      rw [library_of, Path.toList_join (isComponent_specName n (by decide))
        (Path.join_ne_empty hname _) (Path.getLast?_join hname _)]
      simp

end Layout.Fresh

/-! ## Up to the loader -/

theorem hasPath_of_compilation {host : Host} {l : Layout} {command : String} {files : FileTree}
    {output : String} (h : (compilation host l command files).result = .ok output) :
    (compilation host l command files).files.hasPath l.library = true := by
  unfold compilation Toolchain.compileShared at h ⊢
  cases hparse : Command.parse? command with
  | none =>
      rw [hparse] at h
      cases h
  | some c =>
      rw [hparse] at h
      dsimp only at h ⊢
      cases hrun : host.toolchain c.program
          (Toolchain.compilerArguments c.arguments l.source l.library) files with
      | error reason =>
          rw [hrun] at h
          cases h
      | ok ended =>
          rw [hrun] at h
          dsimp only at h ⊢
          split at h
          · cases h
          · split at h
            · cases h
            · next hpath => simpa using hpath

theorem keeps_compiled {l : Layout} (hl : l.Fresh) (p : Pipeline) (host : Host) (command : String)
    (m : Machine) :
    Keeps l.library (compilation host l command m.files).files
      (p.compiled host l command m).files := by
  rw [files_compiled]
  split
  · cases hwrite : (compilation host l command m.files).files.writeFile l.log (Text.bytesOf
        (host.toolchain.captured command l.source l.library m.files)) with
    | error e => exact .refl _ _
    | ok t => exact .of_writeFile (hl.library_ne_log _) hwrite
  · exact .refl _ _

/-! ## After the loader -/

theorem keeps_keepIfStore {l : Layout} (hl : l.Fresh) (p : Pipeline) (host : Host)
    (rendered command : String) (m : Machine) :
    Keeps l.library m.files (p.keepIfStore host rendered command l.library m).files := by
  unfold keepIfStore
  split
  · next s _ =>
      have hkeeps := Keeps.of_put (Store.isKey_fingerprint rendered command)
        (fun part => hl.library_ne_place m.files.cwd s part rendered command) host.now l.library
        command (host.duration "build" / 1000000) rendered.utf8ByteSize
      unfold keep
      dsimp only
      split
      · next hput =>
          rw [hput] at hkeeps
          exact hkeeps
      · next hput =>
          rw [hput] at hkeeps
          exact hkeeps
  · exact .refl _ _

/-- At the end of a build the library is there exactly if files are kept. -/
theorem hasPath_finish {l : Layout} (hl : l.Fresh) {p : Pipeline} {m : Machine}
    (h : m.files.hasPath l.library = true) :
    if p.saveIntermediates then (p.finish l.dir m).files = m.files
    else (p.finish l.dir m).files.hasPath l.library = false := by
  unfold finish
  split
  · rfl
  · obtain ⟨hpasses, hnode⟩ := FileTree.isDirectory_iff.1 (hl.isDirectory h)
    rw [hpasses.remove hnode]
    obtain ⟨n, hlibrary, -⟩ := hl.resolve_library m.files.cwd
    refine FileTree.hasPath_drop (hl.resolve_dir_ne_nil _) ?_
    rw [hlibrary]
    exact List.prefix_append _ _

/-! ## The whole build -/

/-- Where the library of a build has come from and where it is afterwards. -/
structure Ends (p : Pipeline) (host : Host) (a : Artifact) (t : FileTree) : Prop where
  compiled : a.origin = .compiled → '/' ∈ a.library.toList
  present : p.saveIntermediates = true ∨ a.origin = .store → t.hasPath a.library = true ∧
    (host.LoadsFiles → ∃ bytes, t.readFile a.library = .ok bytes)
  absent : p.saveIntermediates = false → a.origin = .compiled → t.hasPath a.library = false

theorem ends_of_buildIn {p p' : Pipeline} {host : Host} {l : Layout} (hl : l.Fresh)
    {rendered command : String} {m m' : Machine} {a : Artifact}
    (h : p.buildIn host l rendered command m = (.ok a, p', m')) : p.Ends host a m'.files := by
  rw [buildIn_eq] at h
  split at h
  · cases h
  · next output hcompiled =>
      have hfiles := files_link p.countCompilation host l.library .compiled
        ((p.compiled host l command m).report
          (.libraryCompiled l.library (host.duration "compile" / 1000000)))
      have hresult := result_link p.countCompilation host l.library .compiled
        ((p.compiled host l command m).report
          (.libraryCompiled l.library (host.duration "compile" / 1000000)))
      have hstart := sameStart_link p.countCompilation host l.library .compiled
        ((p.compiled host l command m).report
          (.libraryCompiled l.library (host.duration "compile" / 1000000)))
      split at h
      · cases h
      · next a' p'' m'' hlink =>
          cases h
          rw [hlink] at hfiles hresult hstart
          dsimp only at hfiles hresult
          split at hresult
          · cases hresult
          · next entry hload =>
              cases hresult
              have hthere := (keeps_compiled hl p host command m).hasPath
                (hasPath_of_compilation hcompiled)
              have hkeeps := keeps_keepIfStore hl p' host rendered command m''
              rw [hfiles] at hkeeps
              have hend := hasPath_finish hl (p := p') (hkeeps.hasPath hthere)
              have hsaves : p.countCompilation.saveIntermediates = p.saveIntermediates := rfl
              rw [hstart.saveIntermediates, hsaves] at hend
              refine ⟨fun _ => hl.slash_mem_library, ?_, ?_⟩
              · rintro (hsave | horigin)
                · rw [hsave, if_pos rfl] at hend
                  rw [hend]
                  refine ⟨hkeeps.hasPath hthere, fun hloads => ?_⟩
                  obtain ⟨bytes, hread⟩ := hloads _ _ _ _ hload
                  exact ⟨bytes, hkeeps.readFile hread⟩
                · cases horigin
              · intro hsave _
                rw [hsave] at hend
                exact hend

theorem ends_of_build {p p' : Pipeline} {host : Host} {rendered command : String} {m m' : Machine}
    {a : Artifact} (h : p.build host rendered command m = (.ok a, p', m')) :
    p.Ends host a m'.files := by
  rw [build_eq] at h
  split at h
  · cases h
  · next hprepare => exact ends_of_buildIn (fresh_of_prepare hprepare) h

/-- A library that is found in the store is one that is there. -/
theorem ends_of_linkStored {p p' : Pipeline} {host : Host} {s : Store} {key : String}
    {m m' : Machine} {a : Artifact} (h : p.linkStored host s key m = (some a, p', m')) :
    p.Ends host a m'.files := by
  have hfiles := (sameStart_linkStored p host s key m).files
  have horigin := origin_of_linkStored (congrArg Prod.fst h)
  rw [h] at hfiles
  have hcompiled : a.origin ≠ .compiled := by
    rw [horigin]
    decide
  suffices hthere : m.files.hasPath a.library = true ∧
      ∃ n entry, host.load n m.files a.library = .ok entry by
    refine ⟨fun hc => absurd hc hcompiled, fun _ => ?_, fun _ hc => absurd hc hcompiled⟩
    obtain ⟨hpath, n, entry, hload⟩ := hthere
    rw [hfiles]
    exact ⟨hpath, fun hloads => hloads _ _ _ _ hload⟩
  unfold linkStored at h
  split at h
  · cases h
  · cases h
  · next found hlookup =>
      have hresult := result_link p host found.metadata.binary .store m
      split at h
      · cases h
      · next hlink =>
          cases h
          rw [hlink] at hresult
          dsimp only at hresult
          split at hresult
          · cases hresult
          · next entry hload =>
              cases hresult
              exact ⟨(Store.lookup_eq_some_iff.1 hlookup).2.1, _, entry, hload⟩

theorem ends_of_compileAndLink {p p' : Pipeline} {host : Host} {rendered command : String}
    {m m' : Machine} {a : Artifact}
    (h : p.compileAndLink host rendered command m = (.ok a, p', m')) : p.Ends host a m'.files := by
  unfold compileAndLink at h
  split at h
  · exact ends_of_build h
  · next s _ =>
      have hstart := sameStart_linkStored p host s (Store.fingerprint rendered command) m
      split at h
      · next hlink =>
          cases h
          exact ends_of_linkStored hlink
      · next hlink =>
          rw [hlink] at hstart
          obtain ⟨hcompiled, hpresent, habsent⟩ := ends_of_build h
          rw [hstart.saveIntermediates] at hpresent habsent
          exact ⟨hcompiled, hpresent, habsent⟩

end Pipeline

namespace Cli

/-! ## The summary -/

/-- The library is named if files are kept or if it came from the store; what is printed otherwise
has no slash in it. -/
theorem named_iff {p : Pipeline} {host : Host} {a : Artifact} {t : FileTree}
    (h : p.Ends host a t) :
    a.library.toList <:+: (linkSummary p a).toList ↔
      p.saveIntermediates = true ∨ a.origin = .store := by
  unfold linkSummary
  split
  · next hnamed =>
      have hwithin : a.library.toList <:+: ("linked " ++ a.library ++ "\n").toList := by
        rw [String.toList_append, String.toList_append]
        exact ⟨_, _, rfl⟩
      exact iff_of_true hwithin (by simpa using hnamed)
  · next hnot =>
      have hcompiled : a.origin = .compiled := by
        cases horigin : a.origin with
        | compiled => rfl
        | store => simp [horigin] at hnot
      refine iff_of_false (fun hwithin => ?_) (by simpa using hnot)
      exact absurd (hwithin.subset (h.compiled hcompiled)) (by decide)

theorem named_iff_hasPath {p : Pipeline} {host : Host} {a : Artifact} {t : FileTree}
    (h : p.Ends host a t) :
    a.library.toList <:+: (linkSummary p a).toList ↔ t.hasPath a.library = true := by
  rw [named_iff h]
  refine ⟨fun hstays => (h.present hstays).1, fun hpath => ?_⟩
  cases horigin : a.origin with
  | store => exact .inr rfl
  | compiled =>
      left
      by_contra hsave
      rw [h.absent (Bool.eq_false_iff.2 hsave) horigin] at hpath
      cases hpath

theorem named_iff_readFile {p : Pipeline} {host : Host} {a : Artifact} {t : FileTree}
    (h : p.Ends host a t) (hloads : host.LoadsFiles) :
    a.library.toList <:+: (linkSummary p a).toList ↔ ∃ bytes, t.readFile a.library = .ok bytes := by
  refine ⟨fun hnamed => (h.present ((named_iff h).1 hnamed)).2 hloads, ?_⟩
  rintro ⟨bytes, hread⟩
  obtain ⟨hpasses, hnode⟩ := FileTree.readFile_eq_ok_iff.1 hread
  exact (named_iff_hasPath h).2 (FileTree.hasPath_iff.2 ⟨hpasses, _, hnode⟩)

/-! ## The whole run -/

theorem ends_of_buildLibrary {host : Host} {p : Pipeline} {rendered command : String}
    {w w' : Progress} {a : Artifact}
    (h : buildLibrary host p rendered command w = (.ok a, w')) :
    p.Ends host a w'.machine.files := by
  unfold buildLibrary at h
  rcases hbuild : p.compileAndLink host rendered command w.machine with ⟨e | a', p', m'⟩
  · rw [hbuild] at h
    cases h
  · rw [hbuild] at h
    cases h
    have hends := Pipeline.ends_of_compileAndLink hbuild
    exact hends

theorem ends_of_buildFile {host : Host} {settings : Settings} {keep : Bool}
    {path parameters compiler : String} {w w' : Progress} {p : Pipeline} {a : Artifact}
    (h : buildFile host settings keep path parameters compiler w = (.ok (p, a), w')) :
    p.saveIntermediates = (keep || settings.saveIntermediates) ∧
      p.Ends host a w'.machine.files := by
  unfold buildFile at h
  split at h
  · cases h
  · dsimp only at h
    split at h
    · cases h
    · next hbuild =>
        cases h
        exact ⟨rfl, ends_of_buildLibrary hbuild⟩

/-- A run that ends well has printed what its task came to. -/
theorem attempt_of_exitCode {host : Host} {home : Option String} {env : Environment}
    {args : List String} {call : Invocation} {m : Machine}
    (hcall : Invocation.read args = .ok call) (hexit : (run host home env args m).exitCode = 0) :
    (attempt host home env call m).result = .printed (run host home env args m).stdout ∧
      (run host home env args m).machine = (attempt host home env call m).machine := by
  have hrun : run host home env args m = conclude (attempt host home env call m) := by
    rw [run, hcall]
  rw [hrun] at hexit ⊢
  unfold conclude at hexit ⊢
  cases hresult : (attempt host home env call m).result with
  | printed out => exact ⟨rfl, rfl⟩
  | failed f =>
      rw [hresult] at hexit
      cases hexit
  | crashed e =>
      rw [hresult] at hexit
      cases hexit

/-- What a task has printed, and the files that it started from. -/
theorem perform_of_printed {host : Host} {home : Option String} {env : Environment}
    {call : Invocation} {m : Machine} {out : String}
    (h : (attempt host home env call m).result = .printed out) :
    ∃ settings printed w w', (Settings.ofEnvironment home env).1 = .ok settings ∧
      w.machine.files = filesAtStart env call m ∧
      perform host settings call.task w = (.ok printed, w') ∧
      out = printed ++ (if call.time then w'.profile.report else "") ∧
      (attempt host home env call m).machine = w'.machine := by
  unfold filesAtStart
  unfold attempt at h ⊢
  split at h
  · cases h
  · cases h
  · next logger logEvents files hstart =>
      rw [hstart]
      dsimp only at h ⊢
      generalize hstarted : Machine.reportAll { m with files }
        (logEvents ++ (Settings.ofEnvironment home env).2) = started at h ⊢
      have hfiles : started.files = files := by rw [← hstarted]; rfl
      cases hsettings : (Settings.ofEnvironment home env).1 with
      | error e =>
          rw [hsettings] at h
          cases h
      | ok settings =>
          rw [hsettings] at h
          dsimp only [performIf] at h ⊢
          rcases hperform : perform host settings call.task ⟨started, .empty⟩ with ⟨f | printed, w'⟩
          · rw [hperform] at h
            cases h
          · rw [hperform] at h
            refine ⟨settings, printed, _, w', rfl, hfiles, hperform, ?_, rfl⟩
            dsimp only at h
            cases h
            split
            · rfl
            · rw [String.append_empty]

/-- **A build names its library exactly if it is there.**  If a run that builds a template ends
with exit code 0, it has printed the summary of what was built, and after it the times if they were
asked for.  The summary names the library

* exactly if there is something at its path when the run ends, whatever the compiler has done;
* exactly if there is a file there, given that the loader takes nothing but files;
* exactly if it was asked for on the command line or in the environment that files are kept, or the
  library came from the store. -/
theorem build_names_library_iff_present {host : Host} {home : Option String} {env : Environment}
    {args : List String} {call : Invocation} {m : Machine} {path parameters compiler : String}
    {keep : Bool} (hcall : Invocation.read args = .ok call)
    (htask : call.task = .build path parameters compiler keep)
    (hexit : (run host home env args m).exitCode = 0) :
    let ended := run host home env args m
    ∃ settings p a w w', (Settings.ofEnvironment home env).1 = .ok settings ∧
      w.machine.files = filesAtStart env call m ∧
      buildFile host settings keep path parameters compiler w = (.ok (p, a), w') ∧
      ended.machine = w'.machine ∧
      ended.stdout = linkSummary p a ++ (if call.time then w'.profile.report else "") ∧
      (a.library.toList <:+: (linkSummary p a).toList ↔
        ended.machine.files.hasPath a.library = true) ∧
      (host.LoadsFiles → (a.library.toList <:+: (linkSummary p a).toList ↔
        ∃ bytes, ended.machine.files.readFile a.library = .ok bytes)) ∧
      (a.library.toList <:+: (linkSummary p a).toList ↔
        keep = true ∨ settings.saveIntermediates = true ∨ a.origin = .store) := by
  intro ended
  obtain ⟨hprinted, hmachine⟩ := attempt_of_exitCode hcall hexit
  obtain ⟨settings, printed, w, w', hsettings, hfiles, hperform, hout, hattempt⟩ :=
    perform_of_printed hprinted
  rw [htask] at hperform
  simp only [perform] at hperform
  split at hperform
  · cases hperform
  · next p a w'' hbuild =>
      cases hperform
      obtain ⟨hsave, hends⟩ := ends_of_buildFile hbuild
      have hended : ended.machine = w'.machine := hmachine.trans hattempt
      refine ⟨settings, p, a, w, w', hsettings, hfiles, hbuild, hended, hout, ?_,
        fun hloads => ?_, ?_⟩
      · rw [hended]
        exact named_iff_hasPath hends
      · rw [hended]
        exact named_iff_readFile hends hloads
      · rw [named_iff hends, hsave, Bool.or_eq_true, or_assoc]

namespace Kept

def host : Host :=
  Scripted.host (fun _ => 0) "/" (Scripted.load "no library") []

theorem loadsFiles_host : host.LoadsFiles := by
  intro n files path entry h
  change Scripted.load "no library" n files path = .ok entry at h
  unfold Scripted.load at h
  split at h
  · cases h
  · next bytes hread => exact ⟨bytes, hread⟩

def machine : Machine :=
  ⟨⟨[], [("t.c", .file (Text.bytesOf "x"))]⟩, 0, .empty, []⟩

def arguments : List String :=
  ["build", "t.c", "--cc", "native-cc", "--keep"]

end Kept

/-- With `--keep` the library of a template is named, and there is a file. -/
theorem build_names_library_iff_present_kept :
    (run Kept.host none (fun _ => none) Kept.arguments Kept.machine).exitCode = 0 ∧
      ∃ library, (run Kept.host none (fun _ => none) Kept.arguments Kept.machine).stdout =
          "linked " ++ library ++ "\n" ∧
        ∃ bytes, (run Kept.host none (fun _ => none) Kept.arguments
          Kept.machine).machine.files.readFile library = .ok bytes := by
  have hcall : Invocation.read Kept.arguments =
      .ok ⟨false, 0, .build "t.c" "" "native-cc" true⟩ := by decide
  have hexit : (run Kept.host none (fun _ => none) Kept.arguments Kept.machine).exitCode = 0 := by
    decide +kernel
  obtain ⟨settings, p, a, w, w', -, -, hbuild, -, hout, -, hfile, hnamed⟩ :=
    build_names_library_iff_present hcall rfl hexit
  have hsummary : linkSummary p a = "linked " ++ a.library ++ "\n" := by
    rw [linkSummary, (ends_of_buildFile hbuild).1, Bool.true_or, Bool.true_or]
    rfl
  refine ⟨hexit, a.library, ?_, (hfile Kept.loadsFiles_host).1 (hnamed.2 (.inl rfl))⟩
  rw [hout, hsummary]
  exact String.append_empty

end Cli
end Loopsmith
