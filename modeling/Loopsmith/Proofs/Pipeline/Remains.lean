import Loopsmith.Proofs.Pipeline.Counts
import Loopsmith.Proofs.Pipeline.Workplaces

/-!
# What a build leaves

There are many ways out of a build: the sources cannot be written, the compiler cannot be started or
fails, its library cannot be loaded or is stored.  Whichever it is, the working directory is gone
afterwards; or, if intermediate files are kept and the compiler was asked, it is there with what the
compiler was given and what it said (`Pipeline.ends_build`).

Two things are left besides: the directories that were missing on the way to the working directories,
and the files of the store (`Job.Leaves`).
-/

namespace Loopsmith

namespace Pipeline

open FileTree (Confined)

/-! ## The compiler -/

/-- What the log says is what was captured. -/
theorem logText_compileShared (run : Toolchain) (command source library : String)
    (files : FileTree) :
    logText (run.compileShared command source library files).result =
      run.captured command source library files := by
  unfold Toolchain.compileShared Toolchain.captured
  cases Command.parse? command with
  | none => rfl
  | some c =>
      dsimp only
      cases run c.program (Toolchain.compilerArguments c.arguments source library) files with
      | error reason => rfl
      | ok ended =>
          dsimp only
          split
          · rfl
          · split
            · rfl
            · rfl

theorem node?_compilation {host : Host} (hwrites : host.WritesTarget) (l : Layout)
    (command : String) (files : FileTree) :
    (compilation host l command files).files.cwd = files.cwd ∧
      ∀ q, ¬ Path.resolve files.cwd l.library <+: q →
        (compilation host l command files).files.node? q = files.node? q := by
  rcases files_compilation host l command files with heq | ⟨c, ended, -, hrun, heq⟩
  · rw [heq]
    exact ⟨rfl, fun _ _ => rfl⟩
  · rw [heq]
    exact hwrites _ _ _ _ _ _ hrun

/-- When the compiler has ended, its log is written if files are kept, and if it can be. -/
theorem files_compiled (p : Pipeline) (host : Host) (l : Layout) (command : String) (m : Machine) :
    (p.compiled host l command m).files =
      if p.saveIntermediates then
        ((compilation host l command m.files).files.writeFile l.log (Text.bytesOf
          (host.toolchain.captured command l.source l.library m.files))).toOption.getD
            (compilation host l command m.files).files
      else (compilation host l command m.files).files := by
  have hlog : logText (compilation host l command m.files).result = _ :=
    logText_compileShared host.toolchain command l.source l.library m.files
  rw [← hlog, compiled, writeLog]
  cases p.saveIntermediates with
  | false => rfl
  | true =>
      dsimp only [Bool.not_true, Bool.false_eq_true, if_false, if_true, Machine.reportAll]
      cases (compilation host l command m.files).files.writeFile l.log
          (Text.bytesOf (logText (compilation host l command m.files).result)) with
      | error e => rfl
      | ok files => rfl

end Pipeline

namespace Job.Opens

open FileTree (Confined)
open Pipeline

variable {j : Job} {name : String} {t : FileTree} {m : Machine}

/-- The compiler stays in the directory, and leaves the other files there alone. -/
theorem compilation (h : j.Opens name t)
    (hconfined : Confined (j.place ++ [name]) j.Stored t m.files) (hwrites : j.host.WritesTarget) :
    Confined (j.place ++ [name]) j.Stored t
        (Pipeline.compilation j.host (j.layout name) j.command m.files).files ∧
      ∀ x, x ≠ specName j.number Store.libraryExtension →
        (Pipeline.compilation j.host (j.layout name) j.command m.files).files.node?
          (j.place ++ [name, x]) = m.files.node? (j.place ++ [name, x]) := by
  obtain ⟨hcwd, hnode⟩ := node?_compilation hwrites (j.layout name) j.command m.files
  have hlibrary : Path.resolve m.files.cwd (j.layout name).library =
      j.place ++ [name, specName j.number Store.libraryExtension] :=
    h.resolve_file hconfined.cwd (isComponent_specName j.number (by decide))
  rw [hlibrary] at hnode
  refine ⟨hconfined.trans (.of_below (x := specName j.number Store.libraryExtension) hcwd ?_
    j.Stored), fun x hx => hnode _ fun hpre => hx ?_⟩
  · simpa using hnode
  · rw [List.prefix_append_right_inj] at hpre
    simpa [eq_comm] using hpre

/-- The log is another file in the directory. -/
theorem compiled (h : j.Opens name t)
    (hconfined : Confined (j.place ++ [name]) j.Stored t m.files)
    (hwrites : j.host.WritesTarget) (p : Pipeline) :
    Confined (j.place ++ [name]) j.Stored t
        (p.compiled j.host (j.layout name) j.command m).files ∧
      ∀ q, q ≠ j.place ++ [name, specName j.number "log"] →
        (p.compiled j.host (j.layout name) j.command m).files.node? q =
          (Pipeline.compilation j.host (j.layout name) j.command m.files).files.node? q := by
  obtain ⟨hfirst, -⟩ := h.compilation hconfined hwrites
  rw [files_compiled]
  split
  · cases hlog : (Pipeline.compilation j.host (j.layout name) j.command m.files).files.writeFile
        (j.layout name).log (Text.bytesOf (j.host.toolchain.captured j.command
          (j.layout name).source (j.layout name).library m.files)) with
    | error e => exact ⟨hfirst, fun _ _ => rfl⟩
    | ok files =>
        obtain ⟨hboth, hnode⟩ :=
          h.writeFile hfirst (isComponent_specName j.number (by decide)) hlog
        refine ⟨hboth, fun q hq => ?_⟩
        change files.node? _ = _
        rw [hnode, if_neg hq]
  · exact ⟨hfirst, fun _ _ => rfl⟩

/-- The log of a build whose files are kept. -/
theorem log (h : j.Opens name t) (hconfined : Confined (j.place ++ [name]) j.Stored t m.files)
    (hwrites : j.host.WritesTarget) {p : Pipeline} (hsave : p.saveIntermediates = true)
    (hfree : m.files.node? (j.place ++ [name, specName j.number "log"]) = none)
    (hspelled : Path.Spelled j.files.cwd (j.layout name).log) :
    (p.compiled j.host (j.layout name) j.command m).files.node?
        (j.place ++ [name, specName j.number "log"]) =
      some (.file (Text.bytesOf (j.host.toolchain.captured j.command (j.layout name).source
        (j.layout name).library m.files))) := by
  have hx : Path.IsComponent (specName j.number "log") := isComponent_specName j.number (by decide)
  obtain ⟨hfirst, hother⟩ := h.compilation hconfined hwrites
  have hnone := hother (specName j.number "log") fun heq =>
    absurd (specName_injective heq) (by decide)
  rw [hfree] at hnone
  rw [files_compiled, if_pos hsave]
  generalize j.host.toolchain.captured j.command (j.layout name).source (j.layout name).library
    m.files = text
  obtain ⟨files, hwrite⟩ : ∃ files,
      (Pipeline.compilation j.host (j.layout name) j.command m.files).files.writeFile
        (j.layout name).log (Text.bytesOf text) = .ok files :=
    h.exists_writeFile hfirst hx hspelled hnone _
  obtain ⟨-, hnode⟩ := h.writeFile hfirst hx hwrite
  rw [hwrite]
  change files.node? _ = _
  rw [hnode, if_pos rfl]

end Job.Opens

/-! ## To the end -/

namespace Store

variable {s : Store} {t : FileTree} {key : String}

/-- Storing a library changes the files of its key, and no directory is lost. -/
theorem node?_put (hkey : IsKey key) {library : String}
    (hapart : Path.resolve t.cwd library ≠ s.place t.cwd .staged key) (now : Timestamp)
    (command : String) (ms length : Nat) :
    (s.put t now key library command ms length).2.cwd = t.cwd ∧
      (∀ q, (∀ part, q ≠ s.place t.cwd part key) →
        (s.put t now key library command ms length).2.node? q = t.node? q) ∧
      ∀ q, t.node? q = some .directory →
        (s.put t now key library command ms length).2.node? q = some .directory := by
  rcases put_cases hkey hapart now command ms length with
    ⟨e, hput⟩ | ⟨bytes, progress, t', -, hreached, hput⟩
  · rw [hput]
    exact ⟨rfl, fun _ _ => rfl, fun _ h => h⟩
  · have ht' : (s.put t now key library command ms length).2 = t' := by
      rcases hput with ⟨e, hput⟩ | ⟨-, hput⟩
      · rw [hput]
      · rw [hput]
    rw [ht']
    exact ⟨hreached.cwd, fun q hq => hreached.node?_elsewhere fun part _ => hq part, hreached.directories⟩

end Store

namespace Job

/-- How a build can end; the flag says whether the compiler was asked. -/
inductive Ends (j : Job) (save : Bool) (after : FileTree) : Bool → Prop
  | unstarted : j.Leaves (fun _ => False) after → Ends j save after false
  | removed : save = false → j.Leaves (fun _ => False) after → Ends j save after true
  | kept (name : String) : save = true → j.LeavesDirectory after name →
      j.made.node? (j.place ++ [name]) = none → j.Leaves (j.place ++ [name] <+: ·) after →
      Ends j save after true

/-- What is left of a build is what should be. -/
structure AccountsFor (j : Job) (save asked : Bool) (after : FileTree) : Prop where
  removed : save = false ∨ asked = false → j.LeavesNothing after
  kept : save = true → asked = true → ∃ name, j.LeavesDirectory after name

theorem Ends.accountsFor {j : Job} {save asked : Bool} {after : FileTree}
    (h : j.Ends save after asked) : j.AccountsFor save asked after := by
  cases h with
  | unstarted hleaves =>
      refine ⟨fun _ => hleaves.nothing, fun _ hasked => ?_⟩
      cases hasked
  | removed hsave hleaves =>
      refine ⟨fun _ => hleaves.nothing, fun hsave' => ?_⟩
      rw [hsave] at hsave'
      cases hsave'
  | kept name hsave hdirectory _ _ =>
      refine ⟨fun hor => ?_, fun _ _ => ⟨name, hdirectory⟩⟩
      rw [hsave] at hor
      simp at hor

end Job

namespace Pipeline

open FileTree (Confined)

theorem nextStem_finish (p : Pipeline) (dir : String) (m : Machine) :
    (p.finish dir m).nextStem = m.nextStem := by
  unfold finish
  split
  · rfl
  · split
    · rfl
    · rfl

theorem nextStem_compiled (p : Pipeline) (host : Host) (l : Layout) (command : String)
    (m : Machine) : (p.compiled host l command m).nextStem = m.nextStem := by
  unfold compiled writeLog
  dsimp only
  split
  · rfl
  · split
    · rfl
    · rfl

theorem finish_eq {p p' : Pipeline} (h : p'.saveIntermediates = p.saveIntermediates) (dir : String)
    (m : Machine) : p'.finish dir m = p.finish dir m := by
  simp only [finish, h]

/-- A library that was linked is put into the store, if there is one. -/
theorem keepIfStore_cases (p : Pipeline) (host : Host) (rendered command library : String)
    (m : Machine) :
    (p.keepIfStore host rendered command library m).nextStem = m.nextStem ∧
      ((p.keepIfStore host rendered command library m).files = m.files ∨ ∃ s, p.store = some s ∧
        (p.keepIfStore host rendered command library m).files = (s.put m.files host.now
          (Store.fingerprint rendered command) library command (host.duration "build" / 1000000)
          rendered.utf8ByteSize).2) := by
  unfold keepIfStore
  cases p.store with
  | none => exact ⟨rfl, .inl rfl⟩
  | some s =>
      obtain ⟨result, files, event, hput, hkeep, -⟩ := keep_cases host s rendered command library m
      dsimp only
      rw [hkeep]
      exact ⟨rfl, .inr ⟨s, rfl, (congrArg Prod.snd hput).symm⟩⟩

/-- Between the compiler and the end of a build only the store is written to. -/
theorem exists_finish (p : Pipeline) (host : Host) (l : Layout) (rendered command : String)
    (m : Machine) :
    (p.buildIn host l rendered command m).2.1.counts.compilations = p.counts.compilations + 1 ∧
      ∃ m', (p.buildIn host l rendered command m).2.2 = p.finish l.dir m' ∧
        m'.nextStem = m.nextStem ∧
        (m'.files = (p.compiled host l command m).files ∨ ∃ s, p.store = some s ∧
          m'.files = (s.put (p.compiled host l command m).files host.now
            (Store.fingerprint rendered command) l.library command
            (host.duration "build" / 1000000) rendered.utf8ByteSize).2) := by
  have hstem := nextStem_compiled p host l command m
  rw [buildIn_eq]
  generalize p.compiled host l command m = m₁ at hstem ⊢
  cases (compilation host l command m.files).result with
  | error e => exact ⟨rfl, m₁, rfl, hstem, .inl rfl⟩
  | ok output =>
      dsimp only
      generalize hm₂ : m₁.report (.libraryCompiled l.library (host.duration "compile" / 1000000)) = m₂
      have hfiles₂ : m₂.files = m₁.files := by rw [← hm₂]; rfl
      have hstem₂ : m₂.nextStem = m₁.nextStem := by rw [← hm₂]; rfl
      have hstart := sameStart_link p.countCompilation host l.library .compiled m₂
      have hcounts := counts_link p.countCompilation host l.library .compiled m₂
      have hstore := store_link p.countCompilation host l.library .compiled m₂
      generalize p.countCompilation.link host l.library .compiled m₂ = r at hstart hcounts hstore ⊢
      obtain ⟨result, p', m'⟩ := r
      have hfiles' : m'.files = m₁.files := hstart.files.trans hfiles₂
      have hstem' : m'.nextStem = m.nextStem := hstart.nextStem.trans (hstem₂.trans hstem)
      have hcompilations : p'.counts.compilations = p.counts.compilations + 1 := by
        cases result <;> exact congrArg PipelineCounts.compilations hcounts
      have hsame : p'.store = p.store := hstore
      cases result with
      | error e =>
          exact ⟨hcompilations, m', finish_eq (p := p) hstart.saveIntermediates l.dir m', hstem',
            .inl hfiles'⟩
      | ok a =>
          obtain ⟨hstem'', hkept⟩ := keepIfStore_cases p' host rendered command l.library m'
          rw [hfiles', hsame] at hkept
          exact ⟨hcompilations, _, finish_eq (p := p) hstart.saveIntermediates l.dir _,
            hstem''.trans hstem', hkept⟩

end Pipeline

namespace Job.Opens

open FileTree (Confined)
open Pipeline

variable {j : Job} {name : String} {t t' : FileTree}

/-- The store is written to beyond the directory. -/
theorem put (h : j.Opens name t) (hconfined : Confined (j.place ++ [name]) j.Stored t t')
    {s : Store} (hstore : j.store = some s) (now : Timestamp) (ms length : Nat) :
    Confined (j.place ++ [name]) j.Stored t (s.put t' now (Store.fingerprint j.rendered j.command)
        (j.layout name).library j.command ms length).2 ∧
      ∀ x, (s.put t' now (Store.fingerprint j.rendered j.command) (j.layout name).library j.command
        ms length).2.node? (j.place ++ [name, x]) = t'.node? (j.place ++ [name, x]) := by
  have hcwd : t'.cwd = j.files.cwd := hconfined.cwd.trans h.cwd
  have hapart : Path.resolve t'.cwd (j.layout name).library ≠
      s.place t'.cwd .staged (Store.fingerprint j.rendered j.command) := by
    rw [hcwd]
    have hlibrary := h.resolve_file hconfined.cwd
      (@isComponent_specName j.number Store.libraryExtension (by decide))
    rw [hcwd] at hlibrary
    intro heq
    exact h.ne_stored _ s .staged _ (hlibrary.symm.trans heq)
  obtain ⟨hcwd', hnode, hdirectories⟩ := Store.node?_put
    (Store.isKey_fingerprint j.rendered j.command) hapart now j.command ms length
  rw [hcwd] at hnode
  refine ⟨hconfined.trans ⟨hcwd', ?_, fun q hq _ => hdirectories q hq⟩, fun x => hnode _ ?_⟩
  · intro q _ hstored
    exact hnode q fun part heq => hstored ⟨s, part, hstore, heq⟩
  · intro part
    exact h.ne_stored x s part _

/-- From the compiler to the end of the build the directory stays as the compiler has left it. -/
theorem exists_finish (h : j.Opens name t) {m : Machine}
    (hconfined : Confined (j.place ++ [name]) j.Stored t m.files) {p : Pipeline}
    (hstore : p.store = j.store) (hwrites : j.host.WritesTarget) :
    ∃ m', (p.buildIn j.host (j.layout name) j.rendered j.command m).2.2 =
        p.finish (Path.join j.base name) m' ∧
      Confined (j.place ++ [name]) j.Stored t m'.files ∧
      ∀ x, m'.files.node? (j.place ++ [name, x]) =
        (p.compiled j.host (j.layout name) j.command m).files.node? (j.place ++ [name, x]) := by
  obtain ⟨-, m', hfinish, -, hfiles⟩ :=
    Pipeline.exists_finish p j.host (j.layout name) j.rendered j.command m
  obtain ⟨hcompiled, -⟩ := h.compiled hconfined hwrites p
  refine ⟨m', hfinish, ?_⟩
  rcases hfiles with heq | ⟨s, hs, heq⟩
  · rw [heq]
    exact ⟨hcompiled, fun _ => rfl⟩
  · rw [heq]
    exact h.put hcompiled (hstore.symm.trans hs) _ _ _

/-- What a build leaves in its directory, if its files are kept. -/
theorem leavesDirectory (h : j.Opens name t) {m : Machine} (hstarts : j.Starts name t m.files)
    (hwrites : j.host.WritesTarget) {p : Pipeline} (hsave : p.saveIntermediates = true)
    (hconfined : Confined (j.place ++ [name]) j.Stored t t')
    (hsame : ∀ x, t'.node? (j.place ++ [name, x]) =
      (p.compiled j.host (j.layout name) j.command m).files.node? (j.place ++ [name, x])) :
    j.LeavesDirectory t' name := by
  have hother : ∀ x, x ≠ specName j.number Store.libraryExtension → x ≠ specName j.number "log" →
      t'.node? (j.place ++ [name, x]) = m.files.node? (j.place ++ [name, x]) := by
    intro x hx hxlog
    rw [hsame, (h.compiled hstarts.confined hwrites p).2 _ (by simpa using hxlog)]
    exact (h.compilation hstarts.confined hwrites).2 x hx
  have hsource : Command.sourceExtension j.command ≠ Store.libraryExtension :=
    sourceExtension_ne j.command (by decide) (by decide)
  have hlog : Command.sourceExtension j.command ≠ "log" :=
    sourceExtension_ne j.command (by decide) (by decide)
  refine ⟨h.start, h.missing, h.node?_place hconfined, ?_, ?_, fun hroom => ?_,
    fun q hpre hq => Job.sameAt_of_made ((h.leaves hconfined).node q hpre hq)⟩
  · rw [hother _ (header_ne_specName _ _) (header_ne_specName _ _)]
    exact hstarts.header
  · rw [hother _ (fun heq => hsource (specName_injective heq))
      (fun heq => hlog (specName_injective heq))]
    exact hstarts.source
  · have hspelled := hroom.elim (fun hn => h.spelled_log hstarts hn) id
    rw [hsame, ← hstarts.tree_eq]
    refine h.log hstarts.confined hwrites hsave (hstarts.others _ ?_ ?_) hspelled
    · exact (header_ne_specName _ _).symm
    · exact fun heq => hlog (specName_injective heq).symm

end Job.Opens

namespace Pipeline

/-- **Once the compiler is asked, the directory is removed in the end or kept as it should be.** -/
theorem ends_buildIn {p : Pipeline} {j : Job} {name : String} {t : FileTree} {m : Machine}
    (hopens : j.Opens name t) (hstarts : j.Starts name t m.files) (hstore : p.store = j.store)
    (hwrites : j.host.WritesTarget) :
    j.Ends p.saveIntermediates
      (p.buildIn j.host (j.layout name) j.rendered j.command m).2.2.files true := by
  obtain ⟨m', hfinish, hconfined, hsame⟩ := hopens.exists_finish hstarts.confined hstore hwrites
  rw [hfinish]
  cases hsave : p.saveIntermediates with
  | false =>
      have hend : (p.finish (Path.join j.base name) m').files = m'.files.drop (j.place ++ [name]) := by
        have hremove := hopens.remove hconfined
        simp only [finish, hsave, hremove, Bool.false_eq_true, if_false]
      rw [hend]
      exact .removed rfl (hopens.leaves_drop hconfined)
  | true =>
      have hend : (p.finish (Path.join j.base name) m').files = m'.files := by
        simp only [finish, hsave, if_true]
        rfl
      rw [hend]
      exact .kept name rfl (hopens.leavesDirectory hstarts hwrites hsave hconfined hsame)
        hopens.free (hopens.leaves hconfined)

/-- A build that gets to the compiler has its directory, with the sources in it. -/
theorem starts_of_prepare {p : Pipeline} {host : Host} {rendered command : String}
    {m m' : Machine} {l : Layout} (h : p.prepare host rendered command m = .ok (l, m')) :
    m'.nextStem = m.nextStem + 1 ∧ ∃ name t, l = (p.job host rendered command m).layout name ∧
      (p.job host rendered command m).Opens name t ∧
      (p.job host rendered command m).Starts name t m'.files := by
  unfold prepare at h
  split at h
  · cases h
  · next dir t hmake =>
      obtain ⟨name, rfl, hopens⟩ := opens_of_makeWorkspace hmake rendered command
      dsimp only at h
      split at h
      · cases h
      · next hwrite =>
          obtain ⟨rfl, rfl⟩ := Prod.mk.inj (Except.ok.inj h)
          exact ⟨rfl, _, t, rfl, hopens, hopens.writeSources hwrite⟩

/-- A build that does not get to the compiler leaves nothing. -/
theorem leaves_of_prepare {p : Pipeline} {host : Host} {rendered command : String}
    {m m' : Machine} {e : SpecializationError}
    (h : p.prepare host rendered command m = .error (e, m')) :
    (m.nextStem ≤ m'.nextStem ∧ m'.nextStem ≤ m.nextStem + 1) ∧
      (p.job host rendered command m).Leaves (fun _ => False) m'.files := by
  unfold prepare at h
  split at h
  · next hmake =>
      cases h
      exact ⟨⟨le_refl _, Nat.le_succ _⟩, leaves_of_makeWorkspace hmake rendered command⟩
  · next dir t hmake =>
      obtain ⟨name, rfl, hopens⟩ := opens_of_makeWorkspace hmake rendered command
      dsimp only at h
      split at h
      · obtain ⟨-, rfl⟩ := Prod.mk.inj (Except.error.inj h)
        refine ⟨⟨Nat.le_succ _, le_refl _⟩, ?_⟩
        have hremove : t.remove (Path.join (p.workplace host m).base name) = _ :=
          hopens.remove (.refl _ _ t)
        dsimp only
        rw [discard, hremove]
        exact hopens.leaves_drop (.refl _ _ t)
      · cases h

/-- **A build leaves nothing, or if files are kept and the compiler was asked, its directory.**  It
uses up one number, or none if the compiler was not asked. -/
theorem ends_build (p : Pipeline) {host : Host} (hwrites : host.WritesTarget)
    (rendered command : String) (m : Machine) :
    ∃ asked, (p.job host rendered command m).Ends p.saveIntermediates
        (p.build host rendered command m).2.2.files asked ∧
      (p.build host rendered command m).2.1.counts.compilations =
        p.counts.compilations + asked.toNat ∧
      m.nextStem + asked.toNat ≤ (p.build host rendered command m).2.2.nextStem ∧
      (p.build host rendered command m).2.2.nextStem ≤ m.nextStem + 1 := by
  rw [build_eq]
  cases hprepare : p.prepare host rendered command m with
  | error r =>
      obtain ⟨⟨hle, hle'⟩, hnothing⟩ := leaves_of_prepare hprepare
      exact ⟨false, .unstarted hnothing, rfl, hle, hle'⟩
  | ok r =>
      obtain ⟨l, m₁⟩ := r
      obtain ⟨hstem, name, t, rfl, hopens, hstarts⟩ := starts_of_prepare hprepare
      obtain ⟨hcompilations, m', hfinish, hstem', -⟩ := exists_finish p host
        ((p.job host rendered command m).layout name) rendered command m₁
      have hend : (p.buildIn host ((p.job host rendered command m).layout name) rendered command
          m₁).2.2.nextStem = m.nextStem + 1 := by
        rw [hfinish, nextStem_finish, hstem', hstem]
      exact ⟨true, ends_buildIn hopens hstarts rfl hwrites, hcompilations, hend.ge, hend.le⟩

theorem job_linkStored (p : Pipeline) (host : Host) (s : Store) (key rendered command : String)
    (m : Machine) :
    (p.linkStored host s key m).2.1.job host rendered command (p.linkStored host s key m).2.2 =
      p.job host rendered command m := by
  have hstart := sameStart_linkStored p host s key m
  simp only [job, workplace, hstart.files, hstart.nextStem, hstart.workDir, store_linkStored]

/-- So does a call that looks into the store first. -/
theorem accountsFor_compileAndLink (p : Pipeline) {host : Host} (hwrites : host.WritesTarget)
    (rendered command : String) (m : Machine) :
    ∃ asked, (p.job host rendered command m).AccountsFor p.saveIntermediates asked
        (p.compileAndLink host rendered command m).2.2.files ∧
      (p.compileAndLink host rendered command m).2.1.counts.compilations =
        p.counts.compilations + asked.toNat ∧
      m.nextStem + asked.toNat ≤ (p.compileAndLink host rendered command m).2.2.nextStem := by
  unfold compileAndLink
  split
  · obtain ⟨asked, hends, hcompilations, hstem, -⟩ := ends_build p hwrites rendered command m
    exact ⟨asked, hends.accountsFor, hcompilations, hstem⟩
  · next s _ =>
      have hstart := sameStart_linkStored p host s (Store.fingerprint rendered command) m
      have hjob := job_linkStored p host s (Store.fingerprint rendered command) rendered command m
      have hcounts := counts_linkStored p host s (Store.fingerprint rendered command) m
      generalize p.linkStored host s (Store.fingerprint rendered command) m = r
        at hstart hjob hcounts ⊢
      obtain ⟨found, p', m'⟩ := r
      cases found with
      | some a =>
          -- the store had a library, and nothing was built
          have hsame : p'.counts.compilations = p.counts.compilations :=
            hcounts ▸ rfl
          refine ⟨false, ⟨fun _ q _ => ?_, fun _ hasked => ?_⟩, hsame, hstart.nextStem.ge⟩
          · exact .inl (congrArg (·.node? q) hstart.files)
          · cases hasked
      | none =>
          obtain ⟨asked, hends, hcompilations, hstem, -⟩ :=
            ends_build p' hwrites rendered command m'
          have hcounts' : p'.counts = p.counts := hcounts
          have hsave : p'.saveIntermediates = p.saveIntermediates := hstart.saveIntermediates
          have hstem' : m'.nextStem = m.nextStem := hstart.nextStem
          rw [hcounts'] at hcompilations
          rw [hsave, show p'.job host rendered command m' = _ from hjob] at hends
          rw [hstem'] at hstem
          exact ⟨asked, hends.accountsFor, hcompilations, hstem⟩

end Pipeline

end Loopsmith
