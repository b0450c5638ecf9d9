import Loopsmith.Host.Scripted
import Loopsmith.Proofs.Pipeline.Outcomes

/-!
# The scripted host

Each of the scripted compilers copies the source, writes a library of its own or prints something.  So
whatever the script, a run changes nothing but the target (`Scripted.host_writesTarget`), and what it
makes is decided by the program and the source (`Scripted.makes_programs`).  With a loader that looks at
the library and at nothing else, or at nothing at all, the host is steady (`Scripted.host_steady`,
`Scripted.host_steady_of_loads_all`).
-/

namespace Loopsmith
namespace Scripted

/-! ## Targets -/

theorem sourceAndLibrary_compilerArguments (leading : List String) (source library : String) :
    sourceAndLibrary (Toolchain.compilerArguments leading source library) = (source, library) := by
  rw [sourceAndLibrary, Toolchain.compilerArguments, List.reverse_append]
  rfl

/-- Nothing but the target has changed. -/
def Spares (library : String) (t t' : FileTree) : Prop :=
  t'.cwd = t.cwd ∧ ∀ q, ¬ Path.resolve t.cwd library <+: q → t'.node? q = t.node? q

theorem spares_writeFile {library : String} {t t' : FileTree} {bytes : List UInt8}
    (h : t.writeFile library bytes = .ok t') : Spares library t t' := by
  obtain ⟨-, htakes, rfl⟩ := FileTree.writeFile_eq_ok h
  refine ⟨FileTree.cwd_set .., fun q hq => ?_⟩
  rw [FileTree.node?_set htakes, if_neg]
  rintro rfl
  exact hq List.prefix_rfl

theorem spares_copies (text : List String → String) (status : Int) (leading : List String)
    (source library : String) (files : FileTree) :
    Spares library files
      (copies text status (Toolchain.compilerArguments leading source library) files).files := by
  rw [copies, sourceAndLibrary_compilerArguments]
  dsimp only
  split
  · next hcopy =>
      cases hread : files.readFile source with
      | error e =>
          rw [hread] at hcopy
          cases hcopy
      | ok bytes =>
          rw [hread] at hcopy
          dsimp only [bind, Except.bind] at hcopy
          exact spares_writeFile hcopy
  · exact ⟨rfl, fun _ _ => rfl⟩

theorem spares_writes (bytes : List UInt8) (leading : List String) (source library : String)
    (files : FileTree) :
    Spares library files
      (writes bytes (Toolchain.compilerArguments leading source library) files).files := by
  unfold writes
  rw [sourceAndLibrary_compilerArguments]
  split
  · next hwrite => exact spares_writeFile hwrite
  · exact ⟨rfl, fun _ _ => rfl⟩

theorem spares_programs {program : String} {script : Script} (h : programs program = some script)
    (leading : List String) (source library : String) (files : FileTree) :
    Spares library files
      (script (Toolchain.compilerArguments leading source library) files).files := by
  have hprints (output : List UInt8) (status : Option Int) : Spares library files
      (prints output status (Toolchain.compilerArguments leading source library) files).files :=
    ⟨rfl, fun _ _ => rfl⟩
  unfold programs at h
  split at h
  case h_12 => cases h
  all_goals obtain rfl := Option.some.inj h
  · exact spares_copies ..
  · exact spares_copies ..
  · exact spares_copies ..
  · exact hprints ..
  · exact hprints ..
  · exact spares_copies ..
  · exact hprints ..
  · exact hprints ..
  · exact hprints ..
  · exact spares_writes ..
  · exact spares_writes ..

/-- A program that has run is one of the scripted ones. -/
theorem exists_script_of_ofPrograms {program : String} {arguments : List String}
    {files : FileTree} {ended : Finished}
    (h : Toolchain.ofPrograms programs program arguments files = .ok ended) :
    ∃ script, programs program = some script ∧ ended = script arguments files ∧
      arguments.any (·.toList.contains '\x00') = false := by
  unfold Toolchain.ofPrograms at h
  split at h
  · cases h
  · next hnul =>
      rw [List.any_cons, Bool.not_eq_true, Bool.or_eq_false_iff] at hnul
      split at h
      · split at h <;> cases h
      · split at h
        · cases h
        · split at h
          · cases h
          · split at h
            · cases h
            · next script hscript =>
                cases h
                exact ⟨script, hscript, rfl, hnul.2⟩

theorem host_writesTarget (hash : TemplateHash) (temporaryDir : String) (load : Loader)
    (calls : List Call) : (host hash temporaryDir load calls).WritesTarget := by
  intro program leading source library files ended h
  obtain ⟨script, hscript, rfl, -⟩ := exists_script_of_ofPrograms h
  exact spares_programs hscript leading source library files

theorem host_calls_nil (hash : TemplateHash) (temporaryDir : String) (load : Loader)
    (entry : EntryPoint) (iteration : Int64) (pack : Pack) :
    (host hash temporaryDir load []).calls entry iteration pack = [] :=
  ite_self []

/-! ## What compilers make -/

/-- What a compiler makes of a source, if it makes anything of it. -/
def product : String → List UInt8 → Option (List UInt8)
  | "ok-cc", source => some source
  | "ok-c++", source => some source
  | "chatty-cc", source => some source
  | "native-cc", _ => some nativeLibrary
  | "nosym-cc", _ => some bareLibrary
  | _, _ => none

/-- What the compiler of a command makes of a source. -/
def libraryOf (rendered command : String) : Option (List UInt8) :=
  (Command.parse? command).bind fun c =>
    if c.arguments.any (·.toList.contains '\x00') then none
    else product c.program (Text.bytesOf rendered)

/-- The program has ended as one does that makes this of its source. -/
def Makes (made : Option (List UInt8)) (library : String) (files : FileTree) (ended : Finished) :
    Prop :=
  match made with
  | some bytes => ended.status = some 0 ∧ files.writeFile library bytes = .ok ended.files
  | none => ended.status ≠ some 0 ∨ ended.files.hasPath library = false

section

variable {source library : String} {files : FileTree} {bytes : List UInt8}

theorem makes_copies (hread : files.readFile source = .ok bytes)
    (hwrite : ∀ bytes, ∃ t, files.writeFile library bytes = .ok t) (text : List String → String)
    (status : Int) (leading : List String) :
    Makes (if status = 0 then some bytes else none) library files
      (copies text status (Toolchain.compilerArguments leading source library) files) := by
  obtain ⟨t, ht⟩ := hwrite bytes
  have hcopies : copies text status (Toolchain.compilerArguments leading source library) files =
      ⟨t, Text.bytesOf (text (Toolchain.compilerArguments leading source library)),
        some status⟩ := by
    rw [copies, sourceAndLibrary_compilerArguments]
    dsimp only
    rw [hread]
    dsimp only [bind, Except.bind]
    rw [ht]
  rw [hcopies]
  split
  · next h => exact ⟨by rw [h], ht⟩
  · next h => exact .inl fun heq => h (Option.some.inj heq)

theorem makes_writes (hwrite : ∀ bytes, ∃ t, files.writeFile library bytes = .ok t)
    (written : List UInt8) (leading : List String) :
    Makes (some written) library files
      (writes written (Toolchain.compilerArguments leading source library) files) := by
  obtain ⟨t, ht⟩ := hwrite written
  have hwrites : writes written (Toolchain.compilerArguments leading source library) files =
      ⟨t, [], some 0⟩ := by
    unfold writes
    rw [sourceAndLibrary_compilerArguments]
    dsimp only
    rw [ht]
  rw [hwrites]
  exact ⟨rfl, ht⟩

theorem makes_programs {program : String} {script : Script} (h : programs program = some script)
    (hread : files.readFile source = .ok bytes)
    (hwrite : ∀ bytes, ∃ t, files.writeFile library bytes = .ok t)
    (hmissing : files.hasPath library = false) (leading : List String) :
    Makes (product program bytes) library files
      (script (Toolchain.compilerArguments leading source library) files) := by
  have hprints (output : List UInt8) (status : Option Int) : Makes none library files
      (prints output status (Toolchain.compilerArguments leading source library) files) :=
    .inr hmissing
  unfold programs at h
  split at h
  case h_12 => cases h
  all_goals obtain rfl := Option.some.inj h
  · exact makes_copies hread hwrite _ 0 leading
  · exact makes_copies hread hwrite _ 0 leading
  · exact makes_copies hread hwrite _ 0 leading
  · exact hprints ..
  · exact hprints ..
  · exact makes_copies hread hwrite _ 2 leading
  · exact hprints ..
  · exact hprints ..
  · exact hprints ..
  · exact makes_writes hwrite _ leading
  · exact makes_writes hwrite _ leading

/-- A program that can make something is started, unless an argument cannot be handed over. -/
theorem isOk_ofPrograms {program : String} {made : List UInt8}
    (h : product program bytes = some made) {arguments : List String}
    (hnul : arguments.any (·.toList.contains '\x00') = false) :
    (Toolchain.ofPrograms programs program arguments files).isOk = true := by
  have hany : (program :: arguments).any (·.toList.contains '\x00') =
      program.toList.contains '\x00' := by
    rw [List.any_cons, hnul, Bool.or_false]
  rw [Toolchain.ofPrograms, hany]
  unfold product at h
  split at h
  case h_6 => cases h
  all_goals rfl

theorem any_compilerArguments (hsource : '\x00' ∉ source.toList) (hlibrary : '\x00' ∉ library.toList)
    (leading : List String) :
    (Toolchain.compilerArguments leading source library).any (·.toList.contains '\x00') =
      leading.any (·.toList.contains '\x00') := by
  have hsource : source.toList.contains '\x00' = false := by simpa using hsource
  have hlibrary : library.toList.contains '\x00' = false := by simpa using hlibrary
  rw [Toolchain.compilerArguments, List.any_append, List.any_append]
  simp only [List.any_cons, hsource, hlibrary, Command.sharedFlags]
  simp

end

section

variable {l : Pipeline.Layout} {rendered : String} {files : FileTree}

theorem exists_writeFile_of_holds (h : l.Holds rendered files)
    (hlast : l.library.toList.getLast? ≠ some '/') (bytes : List UInt8) :
    ∃ t, files.writeFile l.library bytes = .ok t :=
  ⟨_, h.passes.writeFile hlast (by rw [h.free]; simp) bytes⟩

theorem not_hasPath_of_holds (h : l.Holds rendered files) : files.hasPath l.library = false := by
  rw [← Bool.not_eq_true, FileTree.hasPath_iff]
  rintro ⟨-, n, hn⟩
  rw [h.free] at hn
  cases hn

theorem hasPath_of_writeFile {t t' : FileTree} {path : String} {bytes : List UInt8}
    (h : t.writeFile path bytes = .ok t') : t'.hasPath path = true := by
  obtain ⟨hpasses, hnode⟩ := FileTree.readFile_eq_ok_iff.1 (FileTree.readFile_of_writeFile h)
  exact FileTree.hasPath_iff.2 ⟨hpasses, _, hnode⟩

theorem result_of_makes {made : Option (List UInt8)} {library : String} {ended : Finished}
    (h : Makes made library files ended) (command output : String) :
    (if ended.status != some 0 then
        .error (.compile command ended.status output)
      else if !ended.files.hasPath library then .error (.compile command none output)
      else .ok output : Except SpecializationError String).isOk = made.isSome ∧
      ∀ bytes ∈ made, files.writeFile library bytes = .ok ended.files := by
  cases made with
  | some bytes =>
      obtain ⟨hstatus, hwrite⟩ := h
      rw [hstatus, hasPath_of_writeFile hwrite]
      exact ⟨rfl, fun _ hbytes => Option.some.inj hbytes ▸ hwrite⟩
  | none =>
      refine ⟨?_, fun _ hbytes => by cases hbytes⟩
      rcases h with hstatus | hmissing
      · rw [if_pos (bne_iff_ne.2 hstatus)]
        rfl
      · rw [hmissing]
        split
        · rfl
        · rfl

/-- A compilation comes to what its source and its command say. -/
theorem compilation_of_holds (h : l.Holds rendered files)
    (hlast : l.library.toList.getLast? ≠ some '/') (command : String) :
    let c := Toolchain.compileShared (.ofPrograms programs) command l.source l.library files
    c.result.isOk = (libraryOf rendered command).isSome ∧
      ∀ bytes ∈ libraryOf rendered command, files.writeFile l.library bytes = .ok c.files := by
  have hsource := (FileTree.readFile_eq_ok_iff.1 h.source).1.1.no_nul
  have hwrite := exists_writeFile_of_holds h hlast
  dsimp only
  unfold Toolchain.compileShared libraryOf
  cases Command.parse? command with
  | none => exact ⟨rfl, fun _ hbytes => by cases hbytes⟩
  | some c =>
      have hany := any_compilerArguments hsource h.passes.1.no_nul c.arguments
      rw [Option.bind_some, ← hany]
      dsimp only
      cases hrun : Toolchain.ofPrograms programs c.program
          (Toolchain.compilerArguments c.arguments l.source l.library) files with
      | error reason =>
          have hnone : (if (Toolchain.compilerArguments c.arguments l.source l.library).any
              (·.toList.contains '\x00') then none
              else product c.program (Text.bytesOf rendered)) = none := by
            split
            · rfl
            · next hnul =>
                cases hmade : product c.program (Text.bytesOf rendered) with
                | none => rfl
                | some made =>
                    have hok := @isOk_ofPrograms files _ _ _ hmade _ (by simpa using hnul)
                    rw [hrun] at hok
                    cases hok
          rw [hnone]
          exact ⟨rfl, fun _ hbytes => by cases hbytes⟩
      | ok ended =>
          obtain ⟨script, hscript, rfl, hnul⟩ := exists_script_of_ofPrograms hrun
          have hmakes := makes_programs hscript h.source hwrite (not_hasPath_of_holds h) c.arguments
          rw [hnul]
          exact result_of_makes hmakes command _

theorem isOk_load {library : String} {bytes : List UInt8} (h : files.readFile library = .ok bytes)
    (reason : String) (count : Nat) :
    (load reason count files library).isOk = (some bytes == some nativeLibrary) := by
  unfold load
  rw [h]
  dsimp only
  split
  · next hnative => exact hnative.symm
  · next hother =>
      split
      · exact (Bool.eq_false_of_not_eq_true hother).symm
      · exact (Bool.eq_false_of_not_eq_true hother).symm

theorem getLast?_library (dir : String) (n : Nat) (command : String) :
    (Pipeline.Layout.of dir n command).library.toList.getLast? ≠ some '/' :=
  Path.getLast?_join (isComponent_specName n (by decide)) dir

/-- **With a loader that looks at the library, the scripted host is steady.** -/
theorem host_steady (hash : TemplateHash) (temporaryDir reason : String) (calls : List Call) :
    (host hash temporaryDir (Scripted.load reason) calls).Steady
      (fun rendered command => (libraryOf rendered command).isSome)
      (fun rendered command => libraryOf rendered command == some nativeLibrary) := by
  refine ⟨host_writesTarget hash temporaryDir _ calls, ?_, ?_⟩
  · intro dir n rendered command files hholds
    exact (compilation_of_holds hholds (getLast?_library dir n command) command).1
  · intro dir n rendered command files hholds hcompiles count t hcwd hpasses hnode
    obtain ⟨bytes, hbytes⟩ := Option.isSome_iff_exists.1 hcompiles
    have hwrite :=
      (compilation_of_holds hholds (getLast?_library dir n command) command).2 bytes hbytes
    have hread : t.readFile (Pipeline.Layout.of dir n command).library = .ok bytes := by
      obtain ⟨-, hfile⟩ := FileTree.readFile_eq_ok_iff.1 (FileTree.readFile_of_writeFile hwrite)
      rw [(spares_writeFile hwrite).1] at hfile
      rw [FileTree.readFile_eq_ok_iff, hcwd, hnode _ List.prefix_rfl]
      exact ⟨hpasses, hfile⟩
    rw [hbytes]
    exact isOk_load hread reason count

/-- It is with a loader that takes every library. -/
theorem host_steady_of_loads_all (hash : TemplateHash) (temporaryDir : String)
    (calls : List Call) :
    (host hash temporaryDir (loadNumbered [] []) calls).Steady
      (fun rendered command => (libraryOf rendered command).isSome) (fun _ _ => true) := by
  refine ⟨host_writesTarget hash temporaryDir _ calls, ?_, ?_⟩
  · intro dir n rendered command files hholds
    exact (compilation_of_holds hholds (getLast?_library dir n command) command).1
  · intros
    rfl

end

end Scripted
end Loopsmith
