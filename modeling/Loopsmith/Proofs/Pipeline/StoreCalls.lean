import Loopsmith.Proofs.Pipeline.Stages
import Loopsmith.Proofs.Store.Effects

/-!
# A call and its store

What one call of a pipeline with a store does to the directories of that store.  A call makes a
directory of its own to work in, and as the store was there before, that directory lies beside it
(`Store.Beside`): whatever the call writes there spares the store, and so does removing it in the
end.  The compiler is another program, and that it spares the store has to be assumed
(`StoreCall.Spares`).

A pipeline knows its store by the root that it was given, and where that leads depends on the
directory that the call is made in (`StoreCall.home`).

So there are two courses that a call can take (`StoreCall.course`).  Either the store is as it was
before, and no library was compiled and loaded; or one was, and the only thing that happened to the
store is that this library was put into it, as it was when the loader took it.
-/

namespace Loopsmith

theorem slash_not_mem_toString (n : Nat) : '/' ∉ (toString n).toList := by
  intro h
  rw [Nat.toString_eq_ofList_toDigits, String.toList_ofList] at h
  have := Nat.isDigit_of_mem_toDigits (by omega) (by omega) h
  contradiction

namespace Store

/-! ## Directories beside a store -/

/-- A directory that neither contains the store at `home` nor is a file of it. -/
structure Beside (home : Place) (t : FileTree) (dir : String) : Prop where
  apart : Apart home (Path.resolve t.cwd dir)
  entry : ∀ (part : Part) (name : String) (bytes : List UInt8),
    Path.resolve t.cwd dir = part.shelf home ++ [name] →
      t.node? (Path.resolve t.cwd dir) ≠ some (.file bytes)

namespace Beside

variable {home : Place} {t t' : FileTree} {dir : String}

theorem spared (h : Beside home t dir) (hspared : Spared home t t') : Beside home t' dir := by
  refine ⟨by rw [hspared.cwd]; exact h.apart, ?_⟩
  rw [hspared.cwd]
  intro part name bytes heq hfile
  refine h.entry part name bytes heq ?_
  rw [heq] at hfile ⊢
  exact (hspared.entries part name bytes).1 hfile

theorem spared_write (h : Beside home t dir) {x : String} (hx : Path.IsComponent x)
    {bytes : List UInt8} (hwrite : t.writeFile (Path.join dir x) bytes = .ok t') :
    Spared home t t' := by
  obtain ⟨-, htakes, ht'⟩ := FileTree.writeFile_eq_ok hwrite
  rw [Path.resolve_join hx] at htakes ht'
  rw [ht']
  exact .of_write h.apart htakes bytes

theorem spared_remove (h : Beside home t dir) (hremove : t.remove dir = .ok t') :
    Spared home t t' := by
  obtain ⟨-, ht'⟩ := FileTree.remove_eq_ok hremove
  rw [ht']
  exact .of_drop h.apart h.entry

variable {s : Store}

/-- A file of the directory is not the one that a library is copied to first. -/
theorem resolve_ne_staged (h : Beside home t dir) (hhome : Path.resolve t.cwd s.root = home)
    {x : String} (hx : Path.IsComponent x) (key : String) :
    Path.resolve t.cwd (Path.join dir x) ≠ s.place t.cwd .staged key := by
  intro heq
  rw [Path.resolve_join hx, place_eq, hhome] at heq
  have hdir := (List.append_inj' heq rfl).1
  exact h.apart .staged ⟨[], by rw [List.append_nil, hdir]⟩

/-- Storing a library of the directory leaves it beside the store. -/
theorem beside_put (h : Beside home t dir) (hhome : Path.resolve t.cwd s.root = home)
    {x key : String} (hx : Path.IsComponent x) (hkey : IsKey key) (now : Timestamp)
    (command : String) (ms length : Nat) :
    Beside home (s.put t now key (Path.join dir x) command ms length).2 dir := by
  have hcases := put_cases hkey (h.resolve_ne_staged hhome hx key) now command ms length
  rcases hcases with ⟨e, hput⟩ | ⟨bytes, progress, t', hread, hreached, hresult⟩
  · rw [hput]
    exact h
  · have ht' : (s.put t now key (Path.join dir x) command ms length).2 = t' := by
      rcases hresult with ⟨e, hput⟩ | ⟨-, hput⟩
      · rw [hput]
      · rw [hput]
    -- the library is there, so its directory is one
    have hdir : t.node? (Path.resolve t.cwd dir) = some .directory := by
      have hfile := (FileTree.readFile_eq_ok_iff.1 hread).2
      rw [Path.resolve_join hx] at hfile
      exact FileTree.node?_of_isPrefix hfile (List.prefix_append _ _) (by simp)
    rw [ht']
    refine ⟨by rw [hreached.cwd]; exact h.apart, ?_⟩
    intro part name bytes _ hfile
    rw [hreached.cwd, hreached.directories _ hdir] at hfile
    cases hfile

end Beside
end Store

namespace Pipeline

open Store (Spared Beside)

/-! ## The working directory -/

theorem isComponent_numbered (n : Nat) :
    Path.IsComponent (FileTree.numbered workspaceStart n) := by
  refine Path.isComponent_of_head ?_ ⟨'d', by simp [FileTree.numbered, workspaceStart], by decide⟩
  simp only [FileTree.numbered, String.toList_append, String.toList_ofList, List.mem_append, not_or]
  refine ⟨⟨by decide, ?_⟩, slash_not_mem_toString n⟩
  intro h
  have := List.eq_of_mem_replicate h
  contradiction

theorem widened_makeWorkspace (p : Pipeline) (host : Host) (t : FileTree) :
    t.Widened (p.makeWorkspace host t).2 := by
  unfold makeWorkspace
  have hparent := FileTree.Widened.makeDirectories t (p.workDir.getD host.temporaryDir)
  dsimp only
  split
  · next h =>
      rw [h] at hparent
      exact hparent
  · next h =>
      rw [h] at hparent
      split
      · exact hparent
      · next hmake => exact hparent.trans (.of_makeDirectory hmake)

/-- The working directory is a new one. -/
theorem node?_makeWorkspace {p : Pipeline} {host : Host} {t t' : FileTree} {dir : String}
    (h : p.makeWorkspace host t = (.ok dir, t')) :
    t.node? (Path.resolve t.cwd dir) = none ∧
      t'.node? (Path.resolve t.cwd dir) = some .directory := by
  unfold makeWorkspace at h
  have hparent := FileTree.Widened.makeDirectories t (p.workDir.getD host.temporaryDir)
  dsimp only at h
  split at h
  · cases h
  · next t₁ hmade =>
      rw [hmade] at hparent
      split at h
      · cases h
      · next t₂ hmake =>
          generalize hname : t₁.freeName (absolute t₁ (p.workDir.getD host.temporaryDir))
            workspaceStart = name at h hmake
          have hx : Path.IsComponent name := by
            rw [← hname]
            exact isComponent_numbered _
          cases h
          have hstrip := FileTree.stripSlashes_of_getLast?
            (Path.getLast?_join hx (absolute t₁ (p.workDir.getD host.temporaryDir)))
          obtain ⟨path', hpath', htakes, hnone, ht'⟩ := FileTree.makeDirectory_eq_ok hmake
          rw [hstrip, or_self] at hpath'
          rw [hpath', hparent.cwd] at htakes hnone ht'
          constructor
          · rcases hparent.node (Path.resolve t.cwd (Path.join
              (absolute t₁ (p.workDir.getD host.temporaryDir)) name)) with heq | ⟨heq, -⟩
            · rw [← heq, hnone]
            · exact heq
          · rw [ht', FileTree.node?_set htakes, if_pos rfl]

theorem beside_makeWorkspace {home : Place} {p : Pipeline} {host : Host} {t t' : FileTree}
    {dir : String} (hstands : Store.Stands home t) (h : p.makeWorkspace host t = (.ok dir, t')) :
    Beside home t' dir := by
  have hcwd : t'.cwd = t.cwd := by
    have hwidened := widened_makeWorkspace p host t
    rw [h] at hwidened
    exact hwidened.cwd
  obtain ⟨hnone, hdir⟩ := node?_makeWorkspace h
  refine ⟨by rw [hcwd]; exact hstands.apart hnone, ?_⟩
  intro part name bytes _ hfile
  rw [hcwd, hdir] at hfile
  cases hfile

/-- All files of a build are in its directory. -/
structure Layout.Gathered (l : Layout) : Prop where
  header : ∃ x, Path.IsComponent x ∧ l.header = Path.join l.dir x
  source : ∃ x, Path.IsComponent x ∧ l.source = Path.join l.dir x
  library : ∃ x, Path.IsComponent x ∧ l.library = Path.join l.dir x
  log : ∃ x, Path.IsComponent x ∧ l.log = Path.join l.dir x

theorem Layout.gathered_of (dir : String) (n : Nat) (command : String) :
    (Layout.of dir n command).Gathered := by
  have hspec : ∀ extension : String, '/' ∉ extension.toList →
      Path.IsComponent s!"spec_{n}.{extension}" := by
    intro extension hext
    change Path.IsComponent ("spec_" ++ toString n ++ "." ++ extension)
    refine Path.isComponent_of_head ?_ ⟨'s', by simp, by decide⟩
    simp only [String.toList_append, List.mem_append, not_or]
    exact ⟨⟨⟨by decide, slash_not_mem_toString n⟩, by decide⟩, hext⟩
  have hsource : '/' ∉ (Command.sourceExtension command).toList := by
    rw [Command.sourceExtension]
    split
    · decide
    · decide
  have hheader : Path.IsComponent Header.fileName := ⟨by decide, by decide, by decide⟩
  have hlibrary := hspec Store.libraryExtension (by decide)
  have hlog := hspec "log" (by decide)
  unfold Layout.of
  exact ⟨⟨_, hheader, rfl⟩, ⟨_, hspec _ hsource, rfl⟩, ⟨_, hlibrary, rfl⟩, ⟨_, hlog, rfl⟩⟩

/-! ## Up to the loader -/

theorem spared_writeSources {home : Place} {t t' : FileTree} {l : Layout} {rendered : String}
    (hl : l.Gathered) (hbeside : Beside home t l.dir) (h : writeSources l rendered t = .ok t') :
    Spared home t t' := by
  obtain ⟨x, hx, hheader⟩ := hl.header
  obtain ⟨y, hy, hsource⟩ := hl.source
  unfold writeSources at h
  split at h
  · cases h
  · next t₁ hw =>
      split at h
      · cases h
      · next hw' =>
          cases h
          rw [hheader] at hw
          rw [hsource] at hw'
          have hfirst := hbeside.spared_write hx hw
          exact hfirst.trans ((hbeside.spared hfirst).spared_write hy hw')

theorem spared_discard {home : Place} {t : FileTree} {dir : String} (hbeside : Beside home t dir) :
    Spared home t (discard t dir) := by
  unfold discard
  split
  · next h => exact hbeside.spared_remove h
  · exact .refl home t

theorem spared_finish {home : Place} {dir : String} (p : Pipeline) {m : Machine}
    (hbeside : Beside home m.files dir) : Spared home m.files (p.finish dir m).files := by
  unfold finish
  split
  · exact .refl home m.files
  · split
    · next h => exact hbeside.spared_remove h
    · exact .refl home m.files

theorem spared_writeLog {home : Place} {l : Layout} (p : Pipeline) (hl : l.Gathered) (m : Machine)
    (hbeside : Beside home m.files l.dir) (result : Except SpecializationError String) :
    Spared home m.files (p.writeLog l result m).files := by
  obtain ⟨x, hx, hlog⟩ := hl.log
  unfold writeLog
  split
  · exact .refl home m.files
  · split
    · next h =>
        rw [hlog] at h
        exact hbeside.spared_write hx h
    · exact .refl home m.files

/-- A build that cannot start spares the store. -/
theorem spared_of_prepare_eq_error {home : Place} {p : Pipeline} {host : Host}
    {rendered command : String} {m m' : Machine} {e : SpecializationError}
    (hstands : Store.Stands home m.files) (h : p.prepare host rendered command m = .error (e, m')) :
    Spared home m.files m'.files := by
  have hwidened := widened_makeWorkspace p host m.files
  unfold prepare at h
  split at h
  · next hmake =>
      rw [hmake] at hwidened
      cases h
      exact .of_widened hwidened
  · next dir t₁ hmake =>
      rw [hmake] at hwidened
      dsimp only at h
      split at h
      · cases h
        exact (Spared.of_widened hwidened).trans (spared_discard (beside_makeWorkspace hstands hmake))
      · cases h

/-- A build that starts has spared the store, and works beside it. -/
theorem spared_of_prepare_eq_ok {home : Place} {p : Pipeline} {host : Host}
    {rendered command : String} {m m' : Machine} {l : Layout} (hstands : Store.Stands home m.files)
    (h : p.prepare host rendered command m = .ok (l, m')) :
    Spared home m.files m'.files ∧ Beside home m'.files l.dir ∧ l.Gathered ∧
      m'.journal = m.journal := by
  have hwidened := widened_makeWorkspace p host m.files
  unfold prepare at h
  split at h
  · cases h
  · next dir t₁ hmake =>
      rw [hmake] at hwidened
      dsimp only at h
      split at h
      · cases h
      · next t₂ hwrite =>
          cases h
          have hbeside := beside_makeWorkspace hstands hmake
          have hwritten := spared_writeSources (Layout.gathered_of _ _ _) hbeside hwrite
          exact ⟨(Spared.of_widened hwidened).trans hwritten, hbeside.spared hwritten,
            Layout.gathered_of _ _ _, rfl⟩

theorem spared_compiled {home : Place} {m : Machine} {host : Host} {command : String} {l : Layout}
    (p : Pipeline) (hl : l.Gathered) (hbeside : Beside home m.files l.dir)
    (hcompiler : Spared home m.files (compilation host l command m.files).files) :
    Spared home m.files (p.compiled host l command m).files := by
  have hlog := spared_writeLog p hl
    (Machine.reportAll { m with files := (compilation host l command m.files).files }
      (compilation host l command m.files).events)
    (hbeside.spared hcompiler) (compilation host l command m.files).result
  exact hcompiler.trans hlog

/-! ## The journal -/

theorem journal_link (p : Pipeline) (host : Host) (library : String) (origin : Origin)
    (m : Machine) : m.journal <+: (p.link host library origin m).2.2.journal := by
  unfold link
  cases host.load p.loads m.files library with
  | error e => exact List.prefix_append _ _
  | ok entry => exact List.prefix_append _ _

theorem journal_linkStored (p : Pipeline) (host : Host) (s : Store) (key : String) (m : Machine) :
    m.journal <+: (p.linkStored host s key m).2.2.journal := by
  unfold linkStored
  split
  · exact List.prefix_append _ _
  · exact List.prefix_append _ _
  · next found _ =>
      have hlink := journal_link p host found.metadata.binary .store m
      split
      · next h =>
          rw [h] at hlink
          exact hlink.trans (List.prefix_append _ _)
      · next h =>
          rw [h] at hlink
          exact hlink.trans (List.prefix_append _ _)

theorem journal_finish (p : Pipeline) (dir : String) (m : Machine) :
    m.journal <+: (p.finish dir m).journal := by
  unfold finish
  split
  · exact List.prefix_append _ _
  · split
    · exact List.prefix_refl _
    · exact List.prefix_append _ _

theorem journal_compiled (p : Pipeline) (host : Host) (l : Layout) (command : String)
    (m : Machine) : m.journal <+: (p.compiled host l command m).journal := by
  have hlog : ∀ (result : Except SpecializationError String) (m' : Machine),
      m'.journal <+: (p.writeLog l result m').journal := by
    intro result m'
    unfold writeLog
    split
    · exact List.prefix_refl _
    · split
      · exact List.prefix_refl _
      · exact List.prefix_append _ _
  have hevents := List.prefix_append m.journal
    ((compilation host l command m.files).events.map Record.event)
  exact hevents.trans (hlog _ (Machine.reportAll
    { m with files := (compilation host l command m.files).files } _))

theorem store_link (p : Pipeline) (host : Host) (library : String) (origin : Origin)
    (m : Machine) : (p.link host library origin m).2.1.store = p.store := by
  unfold link
  cases host.load p.loads m.files library with
  | error e => rfl
  | ok entry => rfl

theorem store_linkStored (p : Pipeline) (host : Host) (s : Store) (key : String) (m : Machine) :
    (p.linkStored host s key m).2.1.store = p.store := by
  unfold linkStored
  split
  · rfl
  · rfl
  · next found _ =>
      have h := store_link p host found.metadata.binary .store m
      split
      · next hl =>
          rw [hl] at h
          exact h
      · next hl =>
          rw [hl] at h
          exact h

theorem origin_of_link {p p' : Pipeline} {host : Host} {library : String} {origin : Origin}
    {m m' : Machine} {a : Artifact} (h : p.link host library origin m = (.ok a, p', m')) :
    a.origin = origin ∧ a.library = library := by
  have hresult := result_link p host library origin m
  rw [h] at hresult
  dsimp only at hresult
  split at hresult
  · cases hresult
  · cases hresult
    exact ⟨rfl, rfl⟩

/-- Storing a library is reported if it fails. -/
theorem keep_cases (host : Host) (s : Store) (rendered command library : String) (m : Machine) :
    ∃ result files event,
      s.put m.files host.now (Store.fingerprint rendered command) library command
        (host.duration "build" / 1000000) rendered.utf8ByteSize = (result, files) ∧
      keep host s rendered command library m = Machine.report { m with files } event ∧
      ∀ e, result = .error e →
        event = .storeFailed (Store.fingerprint rendered command) e.message := by
  unfold keep
  dsimp only
  rcases hput : s.put m.files host.now (Store.fingerprint rendered command) library command
    (host.duration "build" / 1000000) rendered.utf8ByteSize with ⟨e | found, files⟩
  · refine ⟨_, _, _, rfl, rfl, ?_⟩
    rintro e' he'
    cases he'
    rfl
  · exact ⟨_, _, _, rfl, rfl, nofun⟩

/-- What a build does to the store, once the compiler has been asked. -/
theorem course_buildIn {home : Place} {s : Store} {p : Pipeline} {host : Host} {l : Layout}
    {m : Machine} {command : String} (hstore : p.store = some s)
    (hhome : Path.resolve m.files.cwd s.root = home) (hl : l.Gathered)
    (hbeside : Beside home m.files l.dir)
    (hcompiler : Spared home m.files (compilation host l command m.files).files)
    (rendered : String) :
    (Spared home m.files (p.buildIn host l rendered command m).2.2.files ∧
        ∀ a, (p.buildIn host l rendered command m).1 ≠ .ok a) ∨
      ∃ a, (p.buildIn host l rendered command m).1 = .ok a ∧ a.origin = .compiled ∧
        a.library = l.library ∧ ∃ result files,
          s.put (p.compiled host l command m).files host.now (Store.fingerprint rendered command)
            l.library command (host.duration "build" / 1000000) rendered.utf8ByteSize =
              (result, files) ∧
          Spared home files (p.buildIn host l rendered command m).2.2.files ∧
          ∀ e, result = .error e → ∃ reason before,
            m.journal <+: before ∧
              before ++ [.event (.storeFailed (Store.fingerprint rendered command) reason)] <+:
                (p.buildIn host l rendered command m).2.2.journal := by
  have hcompiled := spared_compiled p hl hbeside hcompiler
  have hbeside' := hbeside.spared hcompiled
  have hhome' : Path.resolve (p.compiled host l command m).files.cwd s.root = home := by
    rw [hcompiled.cwd, hhome]
  have hjournal := journal_compiled p host l command m
  rw [buildIn_eq]
  generalize p.compiled host l command m = m₁ at hcompiled hbeside' hhome' hjournal ⊢
  cases hresult : (compilation host l command m.files).result with
  | error e => exact .inl ⟨hcompiled.trans (spared_finish p hbeside'), nofun⟩
  | ok output =>
      dsimp only
      generalize hm₂ : m₁.report (.libraryCompiled l.library (host.duration "compile" / 1000000)) = m₂
      have hfiles₂ : m₂.files = m₁.files := by
        rw [← hm₂]
        rfl
      have hjournal₂ : m₁.journal <+: m₂.journal := by
        rw [← hm₂]
        exact List.prefix_append _ _
      have hlinked := files_link p.countCompilation host l.library .compiled m₂
      have hnoted := journal_link p.countCompilation host l.library .compiled m₂
      have hkept := store_link p.countCompilation host l.library .compiled m₂
      rcases hlink : p.countCompilation.link host l.library .compiled m₂ with ⟨e | a, p', m'⟩
      · left
        rw [hlink] at hlinked
        have hfiles : m'.files = m₁.files := hlinked.trans hfiles₂
        rw [← hfiles] at hcompiled hbeside'
        exact ⟨hcompiled.trans (spared_finish p' hbeside'), nofun⟩
      · right
        rw [hlink] at hlinked hnoted hkept
        have hfiles : m'.files = m₁.files := hlinked.trans hfiles₂
        have hstore' : p'.store = some s := hkept.trans hstore
        obtain ⟨horigin, hlibrary⟩ := origin_of_link hlink
        obtain ⟨result, files, event, hput, hkeep, hevent⟩ :=
          keep_cases host s rendered command l.library m'
        rw [hfiles] at hput
        have hstored : p'.keepIfStore host rendered command l.library m' =
            Machine.report { m' with files } event := by
          rw [keepIfStore, hstore']
          exact hkeep
        refine ⟨a, rfl, horigin, hlibrary, result, files, hput, ?_, ?_⟩
        · have hbeside'' : Beside home files l.dir := by
            obtain ⟨x, hx, hx'⟩ := hl.library
            have hput' := hbeside'.beside_put hhome' hx (Store.isKey_fingerprint rendered command)
              host.now command (host.duration "build" / 1000000) rendered.utf8ByteSize
            rwa [← hx', hput] at hput'
          dsimp only
          rw [hstored]
          exact spared_finish (m := Machine.report { m' with files } event) p' hbeside''
        · intro e he
          refine ⟨e.message, m'.journal, (hjournal.trans hjournal₂).trans hnoted, ?_⟩
          dsimp only
          rw [hstored, ← hevent e he]
          exact journal_finish p' l.dir (Machine.report { m' with files } event)

end Pipeline

/-! ## Calls -/

theorem mem_drop_of_isPrefix {α : Type} {before middle all : List α} {x : α}
    (h : before <+: middle) (hx : middle ++ [x] <+: all) : x ∈ all.drop before.length := by
  obtain ⟨y, rfl⟩ := h
  obtain ⟨z, rfl⟩ := hx
  rw [List.append_assoc, List.append_assoc, List.drop_left]
  simp

/-- A call of a pipeline that uses a store; the command has no zero character in it. -/
structure StoreCall where
  store : Store
  pipeline : Pipeline
  host : Host
  machine : Machine
  rendered : String
  command : String
  uses : pipeline.store = some store
  no_nul : '\x00' ∉ command.toList

namespace StoreCall

open Store (Spared Beside)
open Pipeline

variable (c : StoreCall)

def outcome : Except SpecializationError Artifact × Pipeline × Machine :=
  c.pipeline.compileAndLink c.host c.rendered c.command c.machine

/-- The files before the call. -/
def before : FileTree :=
  c.machine.files

/-- The files after it. -/
def after : FileTree :=
  c.outcome.2.2.files

/-- What the call adds to the journal. -/
def reports : List Record :=
  c.outcome.2.2.journal.drop c.machine.journal.length

/-- Where the root of the store is, from where the call is made. -/
def home : Place :=
  Path.resolve c.before.cwd c.store.root

def key : String :=
  Store.fingerprint c.rendered c.command

theorem isKey_key : Store.IsKey c.key :=
  Store.isKey_fingerprint c.rendered c.command

/-- What the search in the store comes to. -/
def searched : Option Artifact × Pipeline × Machine :=
  c.pipeline.linkStored c.host c.store c.key c.machine

/-- What the call would compile, and from which files. -/
def prepared : Except (SpecializationError × Machine) (Layout × Machine) :=
  c.searched.2.1.prepare c.host c.rendered c.command c.searched.2.2

/-- The compiler does nothing to the store. -/
def Spares : Prop :=
  ∀ l m, c.prepared = .ok (l, m) →
    Spared c.home m.files (compilation c.host l c.command m.files).files

/-- The files when the loader is asked for the library that was compiled. -/
def atLoad : Option FileTree :=
  match c.prepared with
  | .error _ => none
  | .ok (l, m) => some (c.searched.2.1.compiled c.host l c.command m).files

/-- The call compiled a library of these bytes, and the loader took it. -/
def Linked (bytes : List UInt8) : Prop :=
  ∃ a files, c.outcome.1 = .ok a ∧ a.origin = .compiled ∧ c.atLoad = some files ∧
    files.readFile a.library = .ok bytes

/-- The call compiled a library, the loader took it, and it was stored without a warning. -/
def Stored : Prop :=
  ∃ a, c.outcome.1 = .ok a ∧ a.origin = .compiled ∧
    ∀ reason, Record.event (.storeFailed c.key reason) ∉ c.reports

/-- The record that the call makes of a library of `size` bytes. -/
def record (size : Nat) : Metadata :=
  c.store.recordOf c.host.now c.key c.command size (c.host.duration "build" / 1000000)
    c.rendered.utf8ByteSize

theorem binary_record (size : Nat) : (c.record size).binary = c.store.binaryPath c.key := by
  rw [record, Store.recordOf]

/-- What putting a library into the store comes to. -/
def put (library : String) (files : FileTree) : Except StoreError Store.Entry × FileTree :=
  c.store.put files c.host.now c.key library c.command (c.host.duration "build" / 1000000)
    c.rendered.utf8ByteSize

theorem outcome_eq :
    c.outcome =
      match c.searched with
      | (some a, p, m) => (.ok a, p, m)
      | (none, p, m) => p.build c.host c.rendered c.command m := by
  unfold outcome compileAndLink searched key
  rcases hstored : c.pipeline.linkStored c.host c.store (Store.fingerprint c.rendered c.command)
    c.machine with ⟨_ | a, p, m⟩
  · simp only [c.uses, hstored]
  · simp only [c.uses, hstored]

theorem files_searched : c.searched.2.2.files = c.before := by
  unfold searched before
  exact (sameStart_linkStored c.pipeline c.host c.store c.key c.machine).files

theorem store_searched : c.searched.2.1.store = some c.store := by
  rw [searched, store_linkStored, c.uses]

theorem journal_searched : c.machine.journal <+: c.searched.2.2.journal := by
  unfold searched
  exact journal_linkStored c.pipeline c.host c.store c.key c.machine

theorem origin_of_searched {a : Artifact} (h : c.searched.1 = some a) : a.origin = .store := by
  unfold searched at h
  exact origin_of_linkStored h

theorem atLoad_of_prepared {l : Layout} {m : Machine} (h : c.prepared = .ok (l, m)) :
    c.atLoad = some (c.searched.2.1.compiled c.host l c.command m).files := by
  unfold atLoad
  rw [h]

/-- The two courses that a call can take.  Either it does nothing to the store, and what it loads
it found there; or it compiles a library, and puts it into the store. -/
theorem course (hstands : Store.Stands c.home c.before) (hspares : c.Spares) :
    (Spared c.home c.before c.after ∧ ∀ a, c.outcome.1 = .ok a → a.origin = .store) ∨
      ∃ a files result stored, c.outcome.1 = .ok a ∧ a.origin = .compiled ∧
        c.atLoad = some files ∧ Spared c.home c.before files ∧
        Path.resolve files.cwd a.library ≠ c.store.place files.cwd .staged c.key ∧
        c.put a.library files = (result, stored) ∧ Spared c.home stored c.after ∧
        ∀ e, result = .error e →
          ∃ reason, Record.event (.storeFailed c.key reason) ∈ c.reports := by
  have houtcome := c.outcome_eq
  have hfiles := c.files_searched
  have hstore := c.store_searched
  have hjournal := c.journal_searched
  rcases hsearch : c.searched with ⟨_ | a, p, m⟩
  · rw [hsearch] at houtcome hfiles hstore hjournal
    have hprepared : c.prepared = p.prepare c.host c.rendered c.command m := by
      rw [prepared, hsearch]
    have hstands' : Store.Stands c.home m.files := by
      rw [hfiles]
      exact hstands
    dsimp only at houtcome hfiles hstore hjournal
    rw [build_eq, ← hprepared] at houtcome
    cases hp : c.prepared with
    | error em =>
        obtain ⟨e, m'⟩ := em
        have hspared := spared_of_prepare_eq_error hstands' (hprepared.symm.trans hp)
        left
        rw [hp] at houtcome
        rw [after, houtcome, ← hfiles]
        exact ⟨hspared, nofun⟩
    | ok lm =>
        obtain ⟨l, m'⟩ := lm
        obtain ⟨hspared, hbeside, hl, hsame⟩ :=
          spared_of_prepare_eq_ok hstands' (hprepared.symm.trans hp)
        rw [hp] at houtcome
        dsimp only at houtcome
        have hcompiler := hspares l m' hp
        have hhome : Path.resolve m'.files.cwd c.store.root = c.home := by
          rw [hspared.cwd, hfiles, home]
        have hcourse := course_buildIn hstore hhome hl hbeside hcompiler c.rendered
        rw [← houtcome] at hcourse
        rw [hfiles] at hspared
        rcases hcourse with ⟨hspared', hfail⟩ |
          ⟨a, ha, horigin, hlibrary, result, stored, hput, hspared', hreport⟩
        · left
          exact ⟨hspared.trans hspared', fun a ha => absurd ha (hfail a)⟩
        · right
          have hcompiled := spared_compiled p hl hbeside hcompiler
          refine ⟨a, (p.compiled c.host l c.command m').files, result, stored, ha, horigin, ?_,
            hspared.trans hcompiled, ?_, ?_, hspared', ?_⟩
          · have hpipeline : c.searched.2.1 = p := by rw [hsearch]
            rw [c.atLoad_of_prepared hp, hpipeline]
          · obtain ⟨x, hx, hx'⟩ := hl.library
            rw [hlibrary, hx']
            exact (hbeside.spared hcompiled).resolve_ne_staged (by rw [hcompiled.cwd, hhome]) hx c.key
          · rw [put, hlibrary]
            exact hput
          · intro e he
            obtain ⟨reason, before, hbefore, hafter⟩ := hreport e he
            rw [hsame] at hbefore
            exact ⟨reason, mem_drop_of_isPrefix (hjournal.trans hbefore) hafter⟩
  · left
    rw [hsearch] at houtcome hfiles
    rw [after, houtcome]
    refine ⟨?_, ?_⟩
    · dsimp only at hfiles ⊢
      rw [hfiles]
      exact .refl c.home c.before
    · intro a' ha'
      cases ha'
      exact c.origin_of_searched (by rw [hsearch])

/-! ## Libraries from the store -/

/-- A library that came from the store was found by the search. -/
theorem searched_of_origin {a : Artifact} (h : c.outcome.1 = .ok a) (horigin : a.origin = .store) :
    c.searched.1 = some a := by
  have houtcome := c.outcome_eq
  rcases hsearch : c.searched with ⟨_ | a', p, m⟩
  · rw [hsearch] at houtcome
    dsimp only at houtcome
    rw [build_eq] at houtcome
    cases hp : p.prepare c.host c.rendered c.command m with
    | error em =>
        rw [hp] at houtcome
        rw [houtcome] at h
        cases h
    | ok lm =>
        rw [hp] at houtcome
        dsimp only at houtcome
        rw [houtcome, result_buildIn] at h
        split at h
        · cases h
        · split at h
          · cases h
          · cases h
            cases horigin
  · rw [hsearch] at houtcome
    rw [houtcome] at h
    cases h
    rfl

/-- What the search finds is the library of an entry. -/
theorem exists_found {a : Artifact} (h : c.searched.1 = some a) :
    ∃ found, c.store.lookup c.before c.key = .ok (some found) ∧ a.library = found.metadata.binary := by
  unfold searched linkStored at h
  unfold before
  split at h
  · cases h
  · cases h
  · next found hfound =>
      refine ⟨found, hfound, ?_⟩
      split at h
      · cases h
      · next hlink =>
          cases h
          exact (origin_of_link hlink).2

/-- A call that finds a library which the loader takes does nothing else. -/
theorem outcome_of_found {key : String} {metadata : Metadata} {entry : EntryPoint}
    (hfound : c.store.lookup c.before c.key = .ok (some ⟨key, metadata⟩))
    (hload : c.host.load c.pipeline.loads c.before metadata.binary = .ok entry) :
    ∃ a, c.outcome.1 = .ok a ∧ a.origin = .store ∧ a.library = metadata.binary ∧
      c.outcome.2.1.counts.compilations = c.pipeline.counts.compilations ∧
      c.after = c.before ∧
      c.reports = [.event (.libraryLoaded a.library), .event (.storedLibraryReused c.key)] := by
  have hsearched : ∃ p m, c.searched = (some ⟨entry, metadata.binary, .store⟩, p, m) ∧
      p.counts.compilations = c.pipeline.counts.compilations ∧ m.files = c.before ∧
      m.journal = c.machine.journal ++ [.event (.libraryLoaded metadata.binary),
        .event (.storedLibraryReused c.key)] := by
    unfold before at hfound hload
    unfold searched linkStored
    rw [hfound]
    dsimp only
    unfold link
    rw [hload]
    refine ⟨_, _, rfl, rfl, rfl, ?_⟩
    simp [Machine.report, Machine.note, Machine.reportAll, loadEvents]
  obtain ⟨p, m, hsearch, hcounts, hfiles, hjournal⟩ := hsearched
  have houtcome := c.outcome_eq
  rw [hsearch] at houtcome
  refine ⟨⟨entry, metadata.binary, .store⟩, by rw [houtcome], rfl, rfl, ?_, ?_, ?_⟩
  · rw [houtcome, hcounts]
  · rw [after, houtcome, hfiles]
  · rw [reports, houtcome, hjournal, List.drop_left]

/-- A call links one library at most. -/
theorem Linked.unique {library library' : List UInt8} (h : c.Linked library)
    (h' : c.Linked library') : library = library' := by
  obtain ⟨a, files, ha, -, hfiles, hread⟩ := h
  obtain ⟨a', files', ha', -, hfiles', hread'⟩ := h'
  rw [ha] at ha'
  cases ha'
  rw [hfiles] at hfiles'
  cases hfiles'
  rw [hread] at hread'
  cases hread'
  rfl

end StoreCall
end Loopsmith
