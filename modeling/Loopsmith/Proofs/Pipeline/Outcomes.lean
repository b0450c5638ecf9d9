import Loopsmith.Proofs.Pipeline.Remains

/-!
# How far builds get

Builds that have nothing to do with each other still meet in the file system.  They work in the same
place, the first of them may have to make it, and they take their numbers and the names of their
directories from the same stock.  None of that should show in what comes of them.

The compiler and the loader are other programs, and it is assumed that what comes of them depends on
the source and the command alone (`Host.Steady`).  Then how far a build gets is decided by the two and
by whether there is a place to work in (`Workplace.Ready`), with paths that are not too long
(`Workplace.Fits`): `Pipeline.comesTo_compileAndLink`.  The place stays what it is, whatever a build does
to it (`Workplace.Next`), if there is room for another build (`Workplace.Room`).
-/

namespace Loopsmith
namespace Pipeline

/-- How far a build gets. -/
inductive Outcome where
  /-- The sources cannot be written. -/
  | unprepared
  /-- The compiler is asked, but there is no library that can be loaded. -/
  | asked
  | linked
  deriving DecidableEq, Repr

/-- The counters after a build that gets so far. -/
def Outcome.count : Outcome → PipelineCounts → PipelineCounts
  | unprepared, c => c
  | asked, c => { c with compilations := c.compilations + 1 }
  | linked, c => { c with compilations := c.compilations + 1, links := c.links + 1 }

/-- How far builds get in a place where the sources can or cannot be written. -/
def outcomeOf (prepared : Bool) (compiles loads : String → String → Bool)
    (rendered command : String) : Outcome :=
  if !prepared then .unprepared
  else if compiles rendered command && loads rendered command then .linked
  else .asked

/-- The sources are there, and the library can be written. -/
structure Layout.Holds (l : Layout) (rendered : String) (files : FileTree) : Prop where
  header : files.readFile l.header = .ok (Text.bytesOf Header.text)
  source : files.readFile l.source = .ok (Text.bytesOf rendered)
  passes : files.Passes l.library
  free : files.node? (Path.resolve files.cwd l.library) = none

end Pipeline

/-- What comes of the compiler and of the loader is decided by the source and the command: names
and numbers of files, the rest of the tree and what was loaded before make no difference. -/
structure Host.Steady (host : Host) (compiles loads : String → String → Bool) : Prop where
  writes : host.WritesTarget
  compile : ∀ dir n rendered command files,
    (Pipeline.Layout.of dir n command).Holds rendered files →
    (Pipeline.compilation host (.of dir n command) command files).result.isOk =
      compiles rendered command
  load : ∀ dir n rendered command files,
    (Pipeline.Layout.of dir n command).Holds rendered files → compiles rendered command = true →
    ∀ (count : Nat) (t : FileTree), t.cwd = files.cwd →
      t.Passes (Pipeline.Layout.of dir n command).library →
      (∀ q, Path.resolve files.cwd (Pipeline.Layout.of dir n command).library <+: q →
        t.node? q = (Pipeline.compilation host (.of dir n command) command files).files.node? q) →
      (host.load count t (Pipeline.Layout.of dir n command).library).isOk = loads rendered command

/-! ## Room for builds -/

namespace Workplace

open Pipeline (workspaceStart)

variable (w : Workplace)

/-- The path of a file in the directory with this number. -/
def file (i : Nat) (x : String) : String :=
  Path.join (Path.join w.base (FileTree.numbered workspaceStart i)) x

/-- The paths of builds are not too long. -/
def Fits : Prop :=
  Path.Spelled w.files.cwd (w.file 0 Header.fileName)

/-- There is room for so many builds: as many names with six digits are free, and the numbers of the
builds do not make their paths too long, which they cannot do as long as they have four digits. -/
structure Room (k : Nat) : Prop where
  names : ∃ free : List Nat, free.Nodup ∧ free.length = k ∧ ∀ i ∈ free, i < 10 ^ 6 ∧
    w.made.node? (w.place ++ [FileTree.numbered workspaceStart i]) = none
  paths : ∀ n, w.number ≤ n → n < w.number + k →
    n < 10 ^ 4 ∨ Path.Spelled w.files.cwd (w.file 0 (specName n "cpp"))

variable {w}

theorem nul_not_mem_numbered (i : Nat) :
    '\x00' ∉ (FileTree.numbered workspaceStart i).toList := by
  rw [FileTree.toList_numbered]
  simp only [List.mem_append, not_or]
  refine ⟨by decide, fun hzero => ?_, fun hdigit => ?_⟩
  · have heq := List.eq_of_mem_replicate hzero
    contradiction
  · have hdigit := Nat.isDigit_of_mem_toDigits (by decide) (by decide) hdigit
    contradiction

/-- All names with six digits are equally long. -/
theorem spelled_file_of_le {i i' : Nat} (hi : i < 10 ^ 6) (hi' : i' < 10 ^ 6) {x x' : String}
    (hx : Path.IsComponent x) (hx' : Path.IsComponent x') (hnul : '\x00' ∉ x'.toList)
    (hle : x'.utf8ByteSize ≤ x.utf8ByteSize)
    (h : Path.Spelled w.files.cwd (w.file i x)) : Path.Spelled w.files.cwd (w.file i' x') := by
  refine Path.Spelled.within_of_le w.base_ne_empty (Pipeline.isComponent_numbered i)
    (Pipeline.isComponent_numbered i') hx hx' ?_ ?_ hle h
  · rw [List.mem_append, not_or]
    exact ⟨nul_not_mem_numbered i', hnul⟩
  · rw [FileTree.utf8ByteSize_numbered _ hi, FileTree.utf8ByteSize_numbered _ hi']

theorem fits_iff {i : Nat} (hi : i < 10 ^ 6) :
    w.Fits ↔ Path.Spelled w.files.cwd (w.file i Header.fileName) :=
  ⟨spelled_file_of_le (by decide) hi isComponent_header isComponent_header (by decide) le_rfl,
    spelled_file_of_le hi (by decide) isComponent_header isComponent_header (by decide) le_rfl⟩

/-- The files of the next build fit if its header does. -/
theorem Room.spelled_file {k : Nat} (h : w.Room (k + 1)) (hfits : w.Fits) {i : Nat}
    (hi : i < 10 ^ 6) {extension : String} (hslash : '/' ∉ extension.toList)
    (hnul : '\x00' ∉ extension.toList) (hsize : extension.utf8ByteSize ≤ 3) :
    Path.Spelled w.files.cwd (w.file i (specName w.number extension)) := by
  rcases h.paths w.number le_rfl (by omega) with hshort | hspelled
  · have hle := (utf8ByteSize_specName_le (k := 4) (by decide) hshort extension).trans
      (Nat.add_le_add_left hsize _)
    exact spelled_file_of_le (by decide) hi isComponent_header
      (isComponent_specName _ hslash) (nul_not_mem_specName _ hnul) hle hfits
  · refine spelled_file_of_le (by decide) hi (isComponent_specName _ (by decide))
      (isComponent_specName _ hslash) (nul_not_mem_specName _ hnul) ?_ hspelled
    change ("spec_" ++ toString w.number ++ "." ++ extension).utf8ByteSize ≤
      ("spec_" ++ toString w.number ++ "." ++ "cpp").utf8ByteSize
    rw [String.utf8ByteSize_append, @String.utf8ByteSize_append _ "cpp"]
    exact Nat.add_le_add_left hsize _

/-- The next directory gets a name with six digits. -/
theorem Room.exists_name {k : Nat} (h : w.Room (k + 1)) (hready : w.Ready) :
    ∃ i < 10 ^ 6, w.made.freeName w.base workspaceStart = FileTree.numbered workspaceStart i ∧
      w.made.node? (w.place ++ [FileTree.numbered workspaceStart i]) = none := by
  obtain ⟨n, hname, hnone, hbefore⟩ := FileTree.freeName_spec hready.isDirectory workspaceStart
  rw [w.cwd_made] at hnone hbefore
  obtain ⟨free, -, hlength, hfree⟩ := h.names
  obtain ⟨i, rest, rfl⟩ := List.exists_cons_of_length_eq_add_one hlength
  obtain ⟨hi, hnode⟩ := hfree i List.mem_cons_self
  have hle : n ≤ i := by
    by_contra! hlt
    exact hbefore i hlt hnode
  exact ⟨n, by omega, hname, hnone⟩

end Workplace

/-! ## Up to the compiler -/

/-- The sources can be written if their paths are not too long. -/
theorem Job.Opens.exists_writeSources {j : Job} {name : String} {t : FileTree}
    (h : j.Opens name t) (hheader : Path.Spelled j.files.cwd (j.layout name).header)
    (hsource : Path.Spelled j.files.cwd (j.layout name).source) :
    ∃ t', Pipeline.writeSources (j.layout name) j.rendered t = .ok t' := by
  have hx := isComponent_specName j.number (slash_not_mem_sourceExtension j.command)
  have hempty : ∀ x, t.node? (j.place ++ [name, x]) = none := fun x =>
    h.isNew.empty _ (by rw [h.resolve_eq]; exact ⟨[x], by simp⟩) (by rw [h.resolve_eq]; simp)
  obtain ⟨t₁, hfirst⟩ := h.exists_writeFile (.refl _ _ t) isComponent_header hheader
    (hempty Header.fileName) (Text.bytesOf Header.text)
  obtain ⟨hconfined, hnode⟩ := h.writeFile (.refl _ _ t) isComponent_header hfirst
  have hnone : t₁.node? (j.place ++ [name, specName j.number (Command.sourceExtension j.command)]) =
      none := by
    rw [hnode, if_neg, hempty]
    simpa using (header_ne_specName _ _).symm
  obtain ⟨t₂, hsecond⟩ := h.exists_writeFile hconfined hx hsource hnone (Text.bytesOf j.rendered)
  refine ⟨t₂, ?_⟩
  unfold Pipeline.writeSources
  rw [show t.writeFile (j.layout name).header (Text.bytesOf Header.text) = .ok t₁ from hfirst]
  dsimp only
  rw [show t₁.writeFile (j.layout name).source (Text.bytesOf j.rendered) = .ok t₂ from hsecond]

theorem nul_not_mem_sourceExtension (command : String) :
    '\x00' ∉ (Command.sourceExtension command).toList := by
  rw [Command.sourceExtension]
  split
  · decide
  · decide

theorem utf8ByteSize_sourceExtension_le (command : String) :
    (Command.sourceExtension command).utf8ByteSize ≤ 3 := by
  rw [Command.sourceExtension]
  split
  · decide
  · decide

namespace Pipeline

variable {p : Pipeline} {host : Host} {m : Machine} {k : Nat}

theorem exists_makeWorkspace (hready : (p.workplace host m).Ready)
    (hfits : (p.workplace host m).Fits) (hroom : (p.workplace host m).Room (k + 1)) :
    ∃ dir t, p.makeWorkspace host m.files = (.ok dir, t) := by
  obtain ⟨i, hi, hname, hnone⟩ := hroom.exists_name hready
  have hmade : m.files.makeDirectories (p.workDir.getD host.temporaryDir) =
      (.ok (), (p.workplace host m).made) := Prod.ext hready.makes rfl
  have hbase : absolute (p.workplace host m).made (p.workDir.getD host.temporaryDir) =
      (p.workplace host m).base := by
    rw [Workplace.base, absolute, absolute, Workplace.cwd_made]
    rfl
  have hspelled := ((Workplace.fits_iff hi).1 hfits)
  have hdir := Path.spelled_of_join isComponent_header
    (Path.join_ne_empty (isComponent_numbered i) _) (Path.getLast?_join (isComponent_numbered i) _)
    hspelled
  rw [← Workplace.cwd_made] at hdir
  have hpasses := (FileTree.passes_join_iff_of_ne_empty (isComponent_numbered i)
    (p.workplace host m).base_ne_empty).2 ⟨hdir, hready.isDirectory⟩
  have hplace := Path.resolve_join (isComponent_numbered i) (p.workplace host m).made.cwd
    (p.workplace host m).base
  rw [Workplace.place, ← Workplace.cwd_made, ← hplace] at hnone
  obtain ⟨t, hmake⟩ : ∃ t, (p.workplace host m).made.makeDirectory
      (Path.join (p.workplace host m).base (FileTree.numbered workspaceStart i)) = .ok t :=
    ⟨_, hpasses.makeDirectory (Path.getLast?_join (isComponent_numbered i) _) hnone⟩
  unfold makeWorkspace
  dsimp only
  rw [hmade]
  dsimp only
  rw [hbase, hname, hmake]
  exact ⟨_, _, rfl⟩

/-- **The compiler is asked if there is a place to work in and the paths are not too long.** -/
theorem exists_prepare_iff
    (hroom : (p.workplace host m).Ready → (p.workplace host m).Room (k + 1))
    (rendered command : String) :
    (∃ l m', p.prepare host rendered command m = .ok (l, m')) ↔
      (p.workplace host m).Ready ∧ (p.workplace host m).Fits := by
  constructor
  · rintro ⟨l, m', hprepare⟩
    obtain ⟨-, name, t, rfl, hopens, hstarts⟩ := starts_of_prepare hprepare
    refine ⟨hopens.ready, ?_⟩
    obtain ⟨i, hi, hname, -⟩ := (hroom hopens.ready).exists_name hopens.ready
    have hi' : name = FileTree.numbered workspaceStart i := hopens.name_eq.trans hname
    have hspelled := (FileTree.readFile_eq_ok_iff.1 hstarts.readHeader).1.1
    rw [hstarts.confined.cwd, hopens.cwd] at hspelled
    have hheader : Path.Spelled (p.workplace host m).files.cwd
        (Path.join (Path.join (p.workplace host m).base name) Header.fileName) := hspelled
    rw [hi'] at hheader
    exact (Workplace.fits_iff hi).2 hheader
  · rintro ⟨hready, hfits⟩
    have hroom := hroom hready
    obtain ⟨dir, t, hmake⟩ := exists_makeWorkspace hready hfits hroom
    obtain ⟨name, rfl, hopens⟩ := opens_of_makeWorkspace hmake rendered command
    obtain ⟨i, hi, hname, -⟩ := hroom.exists_name hready
    have hi' : name = FileTree.numbered workspaceStart i := hopens.name_eq.trans hname
    have hheader := (Workplace.fits_iff hi).1 hfits
    have hsource := hroom.spelled_file hfits hi (slash_not_mem_sourceExtension command)
      (nul_not_mem_sourceExtension command) (utf8ByteSize_sourceExtension_le command)
    rw [Workplace.file, ← hi'] at hheader hsource
    obtain ⟨t', hwrite⟩ := hopens.exists_writeSources hheader hsource
    refine ⟨(p.job host rendered command m).layout name, { m with
      files := t', nextStem := m.nextStem + 1 }, ?_⟩
    unfold prepare
    rw [hmake]
    dsimp only
    rw [show writeSources (Layout.of (Path.join (p.workplace host m).base name) m.nextStem command)
      rendered t = .ok t' from hwrite]
    rfl

end Pipeline

/-! ## To the end -/

/-- When the compiler is started it has what it needs. -/
theorem Job.Starts.holds {j : Job} {name : String} {t t' : FileTree} (h : j.Starts name t t')
    (hopens : j.Opens name t) (hspelled : Path.Spelled j.files.cwd (j.layout name).library) :
    (j.layout name).Holds j.rendered t' := by
  have hx : Path.IsComponent (specName j.number Store.libraryExtension) :=
    isComponent_specName j.number (by decide)
  have hsource : Command.sourceExtension j.command ≠ Store.libraryExtension :=
    sourceExtension_ne j.command (by decide) (by decide)
  refine ⟨h.readHeader, h.readSource, hopens.passes_file h.confined hx hspelled, ?_⟩
  have hplace : Path.resolve t'.cwd (j.layout name).library = _ :=
    hopens.resolve_file h.confined.cwd hx
  rw [hplace]
  exact h.others _ (header_ne_specName _ _).symm fun heq => hsource (specName_injective heq).symm

namespace Pipeline

/-- The build comes to this. -/
structure ComesTo (p : Pipeline) (host : Host) (rendered command : String) (m : Machine)
    (outcome : Outcome) : Prop where
  result : (p.compileAndLink host rendered command m).1.isOk = decide (outcome = .linked)
  counts : (p.compileAndLink host rendered command m).2.1.counts = outcome.count p.counts

variable {p : Pipeline} {host : Host} {m : Machine} {k : Nat}
  {compiles loads : String → String → Bool}

/-- Once the compiler is asked, it and the loader decide. -/
theorem isOk_buildIn {j : Job} {name : String} {t : FileTree}
    (hsteady : j.host.Steady compiles loads) (hopens : j.Opens name t)
    (hstarts : j.Starts name t m.files)
    (hspelled : Path.Spelled j.files.cwd (j.layout name).library) (p : Pipeline) :
    (p.buildIn j.host (j.layout name) j.rendered j.command m).1.isOk =
      (compiles j.rendered j.command && loads j.rendered j.command) := by
  have hholds := hstarts.holds hopens hspelled
  have hcompile : (compilation j.host (j.layout name) j.command m.files).result.isOk =
      compiles j.rendered j.command := hsteady.compile _ _ _ _ _ hholds
  rw [result_buildIn]
  cases hresult : (compilation j.host (j.layout name) j.command m.files).result with
  | error e =>
      rw [hresult] at hcompile
      rw [← hcompile]
      rfl
  | ok output =>
      rw [hresult] at hcompile
      have hx : Path.IsComponent (specName j.number Store.libraryExtension) :=
        isComponent_specName j.number (by decide)
      obtain ⟨hconfined, hnode⟩ := hopens.compiled hstarts.confined hsteady.writes p
      have hplace : Path.resolve m.files.cwd (j.layout name).library =
          j.place ++ [name, specName j.number Store.libraryExtension] :=
        hopens.resolve_file hstarts.confined.cwd hx
      have hload : (j.host.load p.loads (p.compiled j.host (j.layout name) j.command m).files
          (j.layout name).library).isOk = loads j.rendered j.command := by
        refine hsteady.load _ _ _ _ _ hholds hcompile.symm p.loads _
          (hconfined.cwd.trans hstarts.confined.cwd.symm)
          (hopens.passes_file hconfined hx hspelled) fun q hq => hnode q ?_
        -- the log is another file
        rintro rfl
        change Path.resolve m.files.cwd (j.layout name).library <+: _ at hq
        rw [hplace, List.prefix_append_right_inj] at hq
        have hname : specName j.number Store.libraryExtension = specName j.number "log" := by
          simpa using hq
        exact absurd (specName_injective hname) (by decide)
      rw [← hcompile, ← hload]
      cases j.host.load p.loads (p.compiled j.host (j.layout name) j.command m).files
          (j.layout name).library with
      | error e => rfl
      | ok entry => rfl

theorem count_of_attempted {c c' : PipelineCounts} {ok : Bool} (h : c.Attempted ok c')
    (hasked : c'.compilations = c.compilations + 1) :
    c' = (if ok then Outcome.linked else Outcome.asked).count c := by
  cases h with
  | stored => exact absurd hasked (Nat.succ_ne_self _).symm
  | compiled => rfl
  | failed => rfl
  | unstarted => exact absurd hasked (Nat.succ_ne_self _).symm

/-- A build whose sources are written comes to what the compiler and the loader decide. -/
theorem buildIn_of_prepare (hsteady : host.Steady compiles loads)
    (hroom : (p.workplace host m).Ready → (p.workplace host m).Room (k + 1))
    {rendered command : String} {l : Layout} {m₁ : Machine}
    (hprepare : p.prepare host rendered command m = .ok (l, m₁)) :
    (p.buildIn host l rendered command m₁).1.isOk =
        (compiles rendered command && loads rendered command) ∧
      (p.buildIn host l rendered command m₁).2.1.counts =
        (if compiles rendered command && loads rendered command then Outcome.linked
          else .asked).count p.counts := by
  obtain ⟨hready, hfits⟩ := (exists_prepare_iff hroom rendered command).1 ⟨l, m₁, hprepare⟩
  obtain ⟨-, name, t, rfl, hopens, hstarts⟩ := starts_of_prepare hprepare
  obtain ⟨i, hi, hname, -⟩ := (hroom hready).exists_name hready
  have hi' : name = FileTree.numbered workspaceStart i := hopens.name_eq.trans hname
  have hspelled : Path.Spelled _ (Workplace.file _ i (specName _ Store.libraryExtension)) :=
    (hroom hready).spelled_file hfits hi (by decide) (by decide) (by decide)
  rw [Workplace.file, ← hi'] at hspelled
  have hok : (p.buildIn host ((p.job host rendered command m).layout name) rendered command
      m₁).1.isOk = (compiles rendered command && loads rendered command) :=
    isOk_buildIn hsteady hopens hstarts hspelled p
  obtain ⟨hasked, -⟩ := exists_finish p host ((p.job host rendered command m).layout name)
    rendered command m₁
  refine ⟨hok, ?_⟩
  rw [← hok]
  exact count_of_attempted (attempted_buildIn p host _ rendered command m₁) hasked

theorem compileAndLink_eq_build (hstore : p.store = none) (rendered command : String) :
    p.compileAndLink host rendered command m = p.build host rendered command m := by
  rw [compileAndLink, hstore]

theorem comesTo_of_prepare_error (hstore : p.store = none) {rendered command : String}
    {r : SpecializationError × Machine} (h : p.prepare host rendered command m = .error r) :
    p.ComesTo host rendered command m .unprepared := by
  refine ⟨?_, ?_⟩
  · rw [compileAndLink_eq_build hstore, build_eq, h]
    rfl
  · rw [compileAndLink_eq_build hstore, build_eq, h]
    rfl

/-- **How far a build gets depends on its source, its command, and whether there is a place to work
in where paths are not too long.** -/
theorem comesTo_compileAndLink (hsteady : host.Steady compiles loads) (hstore : p.store = none)
    (hroom : (p.workplace host m).Ready → (p.workplace host m).Room (k + 1)) {prepared : Bool}
    (hprepared : prepared = true ↔ (p.workplace host m).Ready ∧ (p.workplace host m).Fits)
    (rendered command : String) :
    p.ComesTo host rendered command m (outcomeOf prepared compiles loads rendered command) := by
  rw [← exists_prepare_iff hroom rendered command] at hprepared
  cases hprepare : p.prepare host rendered command m with
  | error r =>
      have hfalse : prepared = false := by
        rw [← Bool.not_eq_true, hprepared, hprepare]
        rintro ⟨l, m', hok⟩
        cases hok
      rw [hfalse]
      exact comesTo_of_prepare_error hstore hprepare
  | ok r =>
      obtain ⟨l, m₁⟩ := r
      have htrue : prepared = true := hprepared.2 ⟨l, m₁, hprepare⟩
      obtain ⟨hok, hcounts⟩ := buildIn_of_prepare hsteady hroom hprepare
      refine ⟨?_, ?_⟩
      · rw [compileAndLink_eq_build hstore, build_eq, hprepare]
        dsimp only
        rw [hok, outcomeOf, htrue]
        cases compiles rendered command && loads rendered command <;> rfl
      · rw [compileAndLink_eq_build hstore, build_eq, hprepare]
        dsimp only
        rw [hcounts, outcomeOf, htrue]
        rfl

/-- A build whose number makes the path of its source too long comes to nothing. -/
theorem comesTo_of_source_too_long (hstore : p.store = none) {command : String}
    (hlong : ∀ i, ¬ Path.Spelled m.files.cwd ((p.workplace host m).file i
      (specName m.nextStem (Command.sourceExtension command)))) (rendered : String) :
    p.ComesTo host rendered command m .unprepared := by
  cases hprepare : p.prepare host rendered command m with
  | error r => exact comesTo_of_prepare_error hstore hprepare
  | ok r =>
      obtain ⟨-, name, t, -, hopens, hstarts⟩ := starts_of_prepare hprepare
      obtain ⟨i, hname, -⟩ :=
        FileTree.freeName_spec hopens.ready.isDirectory workspaceStart
      have hspelled := (FileTree.readFile_eq_ok_iff.1 hstarts.readSource).1.1
      rw [hstarts.confined.cwd, hopens.cwd, hopens.name_eq.trans hname] at hspelled
      exact absurd hspelled (hlong i)

end Pipeline

/-! ## The next build -/

namespace Workplace

open Pipeline (workspaceStart)

variable {w w' : Workplace} {name : String} {after : FileTree}

/-- What the next build finds is what this one found, as far as that can matter to it. -/
structure Next (w w' : Workplace) : Prop where
  workDir : w'.workDir = w.workDir
  cwd : w'.files.cwd = w.files.cwd
  ready : w'.Ready ↔ w.Ready
  room : ∀ k, w.Ready → w.Room (k + 1) → w'.Room k

theorem base_eq (hcwd : w'.files.cwd = w.files.cwd) (hworkDir : w'.workDir = w.workDir) :
    w'.base = w.base := by
  rw [base, base, Pipeline.absolute, Pipeline.absolute, hcwd, hworkDir]

theorem file_eq (hcwd : w'.files.cwd = w.files.cwd) (hworkDir : w'.workDir = w.workDir) (i : Nat)
    (x : String) : w'.file i x = w.file i x := by
  rw [file, file, base_eq hcwd hworkDir]

theorem Next.fits (h : w.Next w') : w'.Fits ↔ w.Fits := by
  rw [Fits, Fits, h.cwd, file_eq h.cwd h.workDir]

/-- What was made on the way is still there, and nothing is new but below one name. -/
structure Left (w : Workplace) (name : String) (after : FileTree) : Prop where
  cwd : after.cwd = w.files.cwd
  kept : ∀ q, w.made.node? q ≠ none → after.node? q = w.made.node? q
  others : ∀ q, ¬ w.place ++ [name] <+: q → after.node? q = w.made.node? q

theorem exists_left_of_ends {j : Job} {save asked : Bool} (h : j.Ends save after asked)
    (hstore : j.store = none) : ∃ name, j.Left name after := by
  have hstored : ∀ q, ¬ j.Stored q := by
    rintro q ⟨s, part, hs, -⟩
    rw [hstore] at hs
    cases hs
  cases h with
  | unstarted hleaves =>
      exact ⟨"", hleaves.cwd, fun q _ => hleaves.node q id (hstored q),
        fun q _ => hleaves.node q id (hstored q)⟩
  | removed _ hleaves =>
      exact ⟨"", hleaves.cwd, fun q _ => hleaves.node q id (hstored q),
        fun q _ => hleaves.node q id (hstored q)⟩
  | kept name _ _ hfree hleaves =>
      refine ⟨name, hleaves.cwd, fun q hq => ?_, fun q hq => hleaves.node q hq (hstored q)⟩
      refine hleaves.node q (fun hpre => hq ?_) (hstored q)
      exact FileTree.node?_eq_none_of_isPrefix hfree hpre

theorem Left.isDirectory (h : w.Left name after) {path : String}
    (hdir : w.made.isDirectory path = true) : after.isDirectory path = true := by
  rw [FileTree.isDirectory_iff_way, w.cwd_made] at hdir
  rw [FileTree.isDirectory_iff_way, h.cwd]
  refine ⟨hdir.1, fun q hq => ?_⟩
  have hnode := hdir.2 q hq
  rw [h.kept q (by rw [hnode]; simp), hnode]

theorem utf8ByteSize_workDir_le (w : Workplace) : w.workDir.utf8ByteSize ≤ w.base.utf8ByteSize := by
  rw [base, Pipeline.absolute, Path.join]
  split
  · exact le_rfl
  · split
    · rw [String.utf8ByteSize_append]
      omega
    · rw [String.utf8ByteSize_append]
      omega

/-- A directory that was made is there under its own path, if paths below it can be followed. -/
theorem isDirectory_workDir (hne : w.workDir ≠ "")
    (hmakes : (w.files.makeDirectories w.workDir).1 = .ok ())
    (hspelled : Path.Spelled w.files.cwd w.base) : w.made.isDirectory w.workDir = true := by
  have hmade : w.files.makeDirectories w.workDir = (.ok (), w.made) := Prod.ext hmakes rfl
  have hbare := FileTree.isDirectory_of_makeDirectories hne hmade
  refine FileTree.isDirectory_of_bare hbare ?_
  exact (FileTree.isDirectory_iff.1 hbare).1.1.of_bare hne
    (w.utf8ByteSize_workDir_le.trans hspelled.short)

theorem Ready.spelled_base (h : w.Ready) : Path.Spelled w.files.cwd w.base := by
  rw [← w.cwd_made]
  exact (FileTree.isDirectory_iff.1 h.isDirectory).1.1

theorem Left.makeDirectories (h : w.Left name after) (hready : w.Ready) :
    after.makeDirectories w.workDir = (.ok (), after) := by
  by_cases hempty : w.workDir = ""
  · rw [hempty]
    rfl
  · have hdir := isDirectory_workDir hempty hready.makes hready.spelled_base
    exact FileTree.makeDirectories_of_isDirectory (h.isDirectory hdir)

/-- Of the names that were free all but one are. -/
theorem Left.names (h : w.Left name after) {k : Nat} (hroom : w.Room (k + 1)) :
    ∃ free : List Nat, free.Nodup ∧ free.length = k ∧ ∀ i ∈ free, i < 10 ^ 6 ∧
      after.node? (w.place ++ [FileTree.numbered workspaceStart i]) = none := by
  obtain ⟨free, hnodup, hlength, hfree⟩ := hroom.names
  obtain ⟨used, hused, hother⟩ : ∃ used ∈ free, ∀ i ∈ free, i ≠ used →
      FileTree.numbered workspaceStart i ≠ name := by
    by_cases htaken : ∃ i ∈ free, FileTree.numbered workspaceStart i = name
    · obtain ⟨i, hi, rfl⟩ := htaken
      exact ⟨i, hi, fun j _ hne heq => hne (FileTree.numbered_injective _ heq)⟩
    · obtain ⟨i, rest, rfl⟩ := List.exists_cons_of_length_eq_add_one hlength
      exact ⟨i, List.mem_cons_self, fun j hj _ heq => htaken ⟨j, hj, heq⟩⟩
  refine ⟨free.erase used, hnodup.erase used, ?_, fun i hi => ?_⟩
  · rw [List.length_erase_of_mem hused, hlength, Nat.add_sub_cancel]
  · rw [hnodup.mem_erase_iff] at hi
    obtain ⟨hlt, hnone⟩ := hfree i hi.2
    refine ⟨hlt, ?_⟩
    rw [h.others, hnone]
    rw [List.prefix_append_right_inj, List.cons_prefix_cons]
    exact fun hpre => hother i hi.2 hi.1 hpre.1.symm

/-- Where one build found a place to work in, the next one does. -/
theorem Left.next (h : w.Left name after) (hready : w.Ready) {number : Nat}
    (hle : w.number ≤ number) (hle' : number ≤ w.number + 1) :
    w.Next ⟨after, number, w.workDir⟩ := by
  have hmakes := h.makeDirectories hready
  have hbase : (⟨after, number, w.workDir⟩ : Workplace).base = w.base := base_eq h.cwd rfl
  have hmade : (⟨after, number, w.workDir⟩ : Workplace).made = after := by rw [made, hmakes]
  refine ⟨rfl, h.cwd, iff_of_true ⟨congrArg Prod.fst hmakes, ?_⟩ hready, fun k _ hroom => ⟨?_, ?_⟩⟩
  · rw [hmade, hbase]
    exact h.isDirectory hready.isDirectory
  · have hplace : (⟨after, number, w.workDir⟩ : Workplace).place = w.place := by
      rw [place, place, hbase]
      exact congrArg (Path.resolve · w.base) h.cwd
    rw [hmade, hplace]
    exact h.names hroom
  · intro n hn hlt
    refine (hroom.paths n (hle.trans hn) ?_).imp_right fun hspelled => ?_
    · dsimp only at hlt
      omega
    · rw [file, hbase]
      dsimp only
      rw [h.cwd]
      exact hspelled

/-- Where there was no place to work in, there is none after another attempt. -/
theorem Ready.of_made {number : Nat} (h : (⟨w.made, number, w.workDir⟩ : Workplace).Ready) :
    w.Ready := by
  have hbase : (⟨w.made, number, w.workDir⟩ : Workplace).base = w.base := base_eq w.cwd_made rfl
  have hspelled : Path.Spelled w.files.cwd w.base := by
    have hspelled := h.spelled_base
    rw [hbase] at hspelled
    rwa [← w.cwd_made]
  have hmakes : w.made.makeDirectories w.workDir = (.ok (), w.made) ∧
      (w.files.makeDirectories w.workDir).1 = .ok () := by
    by_cases hempty : w.workDir = ""
    · rw [hempty]
      exact ⟨rfl, rfl⟩
    · cases hfirst : (w.files.makeDirectories w.workDir).1 with
      | error e =>
          obtain ⟨e', hagain⟩ := FileTree.makeDirectories_again (Prod.ext hfirst rfl)
          have hok := h.makes
          rw [show (Workplace.mk w.made number w.workDir).files.makeDirectories
            (Workplace.mk w.made number w.workDir).workDir = (.error e', _) from hagain] at hok
          cases hok
      | ok u =>
          refine ⟨FileTree.makeDirectories_of_isDirectory ?_, rfl⟩
          exact isDirectory_workDir hempty hfirst hspelled
  refine ⟨hmakes.2, ?_⟩
  have hdir := h.isDirectory
  rw [hbase, made, show (Workplace.mk w.made number w.workDir).files.makeDirectories
    (Workplace.mk w.made number w.workDir).workDir = _ from hmakes.1] at hdir
  exact hdir

theorem Room.of_succ {k : Nat} (h : w.Room (k + 1)) : w.Room k := by
  obtain ⟨⟨free, hnodup, hlength, hfree⟩, hpaths⟩ := h
  refine ⟨⟨free.tail, hnodup.tail, ?_, fun i hi => hfree i (List.mem_of_mem_tail hi)⟩,
    fun n hn hlt => hpaths n hn (by omega)⟩
  rw [List.length_tail, hlength, Nat.add_sub_cancel]

theorem Next.refl (w : Workplace) : w.Next w :=
  ⟨rfl, rfl, Iff.rfl, fun _ _ => Room.of_succ⟩

theorem next_of_not_ready (h : ¬ w.Ready) (number : Nat) : w.Next ⟨w.made, number, w.workDir⟩ :=
  ⟨rfl, w.cwd_made, iff_of_false (fun hready => h hready.of_made) h,
    fun _ hready => absurd hready h⟩

end Workplace

namespace Pipeline

variable {p : Pipeline} {host : Host}

theorem workDir_and_store_buildIn (p : Pipeline) (host : Host) (l : Layout)
    (rendered command : String) (m : Machine) :
    (p.buildIn host l rendered command m).2.1.workDir = p.workDir ∧
      (p.buildIn host l rendered command m).2.1.store = p.store := by
  rw [buildIn_eq]
  cases (compilation host l command m.files).result with
  | error e => exact ⟨rfl, rfl⟩
  | ok output =>
      dsimp only
      generalize (p.compiled host l command m).report
        (.libraryCompiled l.library (host.duration "compile" / 1000000)) = m₁
      have hstart := sameStart_link p.countCompilation host l.library .compiled m₁
      have hstore := store_link p.countCompilation host l.library .compiled m₁
      generalize p.countCompilation.link host l.library .compiled m₁ = r at hstart hstore ⊢
      obtain ⟨e | a, p', m'⟩ := r
      · exact ⟨hstart.workDir, hstore⟩
      · exact ⟨hstart.workDir, hstore⟩

theorem workDir_and_store_build (p : Pipeline) (host : Host) (rendered command : String)
    (m : Machine) :
    (p.build host rendered command m).2.1.workDir = p.workDir ∧
      (p.build host rendered command m).2.1.store = p.store := by
  rw [build_eq]
  cases p.prepare host rendered command m with
  | error r => exact ⟨rfl, rfl⟩
  | ok r => exact workDir_and_store_buildIn p host r.1 rendered command r.2

/-- **Whatever comes of a build, the next one finds what this one found.** -/
theorem next_compileAndLink (hwrites : host.WritesTarget) (hstore : p.store = none)
    (rendered command : String) (m : Machine) :
    (p.compileAndLink host rendered command m).2.1.store = none ∧
      (p.workplace host m).Next ((p.compileAndLink host rendered command m).2.1.workplace host
        (p.compileAndLink host rendered command m).2.2) := by
  have hbuild : p.compileAndLink host rendered command m = p.build host rendered command m :=
    compileAndLink_eq_build hstore rendered command
  obtain ⟨hworkDir, hstore'⟩ := workDir_and_store_build p host rendered command m
  have hplace : (p.build host rendered command m).2.1.workplace host
      (p.build host rendered command m).2.2 = ⟨(p.build host rendered command m).2.2.files,
        (p.build host rendered command m).2.2.nextStem, (p.workplace host m).workDir⟩ := by
    rw [workplace, hworkDir]
    rfl
  rw [hbuild]
  refine ⟨hstore'.trans hstore, ?_⟩
  rw [hplace]
  by_cases hready : (p.workplace host m).Ready
  · obtain ⟨asked, hends, -, hle, hle'⟩ := ends_build p hwrites rendered command m
    obtain ⟨name, hleft⟩ := Workplace.exists_left_of_ends hends hstore
    exact hleft.next hready ((Nat.le_add_right _ _).trans hle) hle'
  · have hfiles : (p.build host rendered command m).2.2.files = (p.workplace host m).made := by
      cases hmake : p.makeWorkspace host m.files with
      | mk result t =>
          cases result with
          | error e =>
              rw [build, hmake]
              exact eq_made_of_makeWorkspace hmake rendered command
          | ok dir =>
              obtain ⟨name, -, hopens⟩ := opens_of_makeWorkspace hmake rendered command
              exact absurd hopens.ready hready
    rw [hfiles]
    exact Workplace.next_of_not_ready hready _

end Pipeline

end Loopsmith
