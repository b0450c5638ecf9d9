import Loopsmith.Host.Scripted
import Loopsmith.Proofs.Pipeline.StoreCalls

/-!
# A store gives back what was put into it

Pipelines that share a store call one after another, and each finds the store as the last one left
it.  A call may find its library there, fail, or build a library and store it, and storing may fail
half way through.  What holds all along (`Store.Kept`) is that a record belongs to a call that
compiled and loaded a library under that key, and that the library in its place was compiled and
loaded by a call with that key, although maybe a later one.  The library of a key changes before
its record does, and that is why the two are not always of the same call.

The store is a directory, and the calls may be made in different directories and spell its root in
different ways.  But a record names its library by the path that the call which wrote it had, and a
call that reads the record follows this path from where it is itself (`StoreCall.Finds`).  A root that
is not absolute leads to another place from there, and what is found at that place was stored by
nobody (`store_misled`).

A key stands for a source and a command as long as no two inputs of the calls have the same digest.
That is assumed, and also that records read back as they were written, which is not so for every
record: the numbers in it have to fit.  Both are only assumed for what the calls at hand have
digested and written.
-/

namespace Loopsmith

/-- No two of these inputs have the same digest. -/
def Digest.CollisionFree (inputs : List (List UInt8)) : Prop :=
  ∀ x ∈ inputs, ∀ y ∈ inputs, sha1 x = sha1 y → x = y

namespace StoreCall

/-- What the key of the call is a digest of. -/
def digested (c : StoreCall) : List UInt8 :=
  Store.fingerprintBytes c.rendered c.command

/-- Both calls ask for the same thing. -/
def SameSource (c d : StoreCall) : Prop :=
  c.rendered = d.rendered ∧ c.command = d.command

theorem SameSource.key_eq {c d : StoreCall} (h : c.SameSource d) : c.key = d.key := by
  rw [key, key, h.1, h.2]

theorem sameSource_of_key_eq {calls : List StoreCall}
    (h : Digest.CollisionFree (calls.map digested)) {c d : StoreCall} (hc : c ∈ calls)
    (hd : d ∈ calls) (hkey : c.key = d.key) : c.SameSource d := by
  have hdigested : c.digested = d.digested :=
    h _ (List.mem_map_of_mem hc) _ (List.mem_map_of_mem hd) hkey
  exact Store.fingerprintBytes_injective c.no_nul d.no_nul hdigested

/-- The records of these calls read back as they were written. -/
def ReadBack (calls : List StoreCall) : Prop :=
  ∀ c ∈ calls, ∀ library, c.Linked library →
    Metadata.read? (c.record library.length).write = some (c.record library.length)

/-- Followed from where this call is made, the root of the other one leads to the same store. -/
def Finds (c d : StoreCall) : Prop :=
  Path.resolve c.before.cwd d.store.root = c.home

/-- An absolute root leads to the same place from everywhere. -/
theorem finds_of_isAbsolute {c d : StoreCall} (hroot : Path.isAbsolute d.store.root = true)
    (hhome : d.home = c.home) : c.Finds d := by
  rw [Finds, ← hhome, home, Path.resolve_of_isAbsolute hroot]

end StoreCall

namespace Store

/-- What can have become of the files after some calls that use the store at `home`, one after
another.  Between the calls stores may be opened, the next call may be made in another directory, and
other files may change. -/
inductive Runs (home : Place) (start : FileTree) : List StoreCall → FileTree → Prop where
  | start : Runs home start [] start
  | call {history : List StoreCall} {t : FileTree} (h : Runs home start history t)
      (c : StoreCall) (hbefore : c.before = t) (hhome : c.home = home) (hspares : c.Spares) :
      Runs home start (history ++ [c]) c.after
  | opened {history : List StoreCall} {t : FileTree} (h : Runs home start history t)
      (root : String) : Runs home start history (openAt root t).2
  | moved {history : List StoreCall} {t : FileTree} (h : Runs home start history t) (cwd : Place) :
      Runs home start history { t with cwd }
  | other {history : List StoreCall} {t t' : FileTree} (h : Runs home start history t)
      (hspared : Spared home t t') : Runs home start history t'

theorem spared_openAt (home : Place) (root : String) (t : FileTree) :
    Spared home t (openAt root t).2 := by
  have hbinaries := FileTree.Widened.makeDirectories t (binariesDir ⟨root⟩)
  unfold openAt
  dsimp only
  split
  · next h =>
      rw [h] at hbinaries
      exact .of_widened hbinaries
  · next t₁ h =>
      rw [h] at hbinaries
      have hmetadata := FileTree.Widened.makeDirectories t₁ (metadataDir ⟨root⟩)
      split
      · next h' =>
          rw [h'] at hmetadata
          exact .of_widened (hbinaries.trans hmetadata)
      · next h' =>
          rw [h'] at hmetadata
          exact .of_widened (hbinaries.trans hmetadata)

/-! ## What holds all along -/

/-- The library in the place of a key was linked by a call with that key. -/
def HasLibrary (home : Place) (history : List StoreCall) (t : FileTree) (key : String) : Prop :=
  ∃ d ∈ history, d.key = key ∧ ∃ library, d.Linked library ∧
    t.node? (Part.library.placeIn home key) = some (.file library)

/-- The store has the library of a call, and its record. -/
structure Holds (home : Place) (t : FileTree) (c : StoreCall) (bytes : List UInt8) : Prop where
  linked : c.Linked bytes
  library : t.node? (Part.library.placeIn home c.key) = some (.file bytes)
  record : t.node? (Part.record.placeIn home c.key) = some (.file (c.record bytes.length).write)

/-- What holds of a store after some calls. -/
structure Kept (home : Place) (history : List StoreCall) (t : FileTree) : Prop where
  stands : Stands home t
  /-- Each record is one that a call has written, and the library of its key is there. -/
  records : ∀ name bytes, t.node? (Part.record.shelf home ++ [name]) = some (.file bytes) →
    ∃ c ∈ history, name = Part.record.name c.key ∧
      (∃ library, c.Linked library ∧ bytes = (c.record library.length).write) ∧
      HasLibrary home history t c.key
  /-- What a call has stored is there until another call with the same key. -/
  stored : ∀ past c later, history = past ++ c :: later → c.Stored →
    (∀ d ∈ later, d.key ≠ c.key) → ∃ library, Holds home t c library

theorem Fresh.kept {s : Store} {t : FileTree} (h : s.Fresh t) :
    Kept (Path.resolve t.cwd s.root) [] t := by
  refine ⟨h.isOpen.stands, ?_, ?_⟩
  · intro name bytes hfile
    rw [← Part.resolve_dir] at hfile
    exact absurd hfile (h.empty .record name bytes)
  · intro past c later hnil
    simp at hnil

/-- Where relative paths start makes no difference to what is there. -/
theorem Kept.moved {home : Place} {history : List StoreCall} {t : FileTree}
    (h : Kept home history t) (cwd : Place) : Kept home history { t with cwd } :=
  ⟨h.stands, h.records, fun past c later hhistory hstored hlater =>
    (h.stored past c later hhistory hstored hlater).imp fun _ hholds =>
      ⟨hholds.linked, hholds.library, hholds.record⟩⟩

theorem Kept.spared {home : Place} {history : List StoreCall} {t t' : FileTree}
    (h : Kept home history t) (hspared : Spared home t t') : Kept home history t' := by
  refine ⟨hspared.stands h.stands, ?_, ?_⟩
  · intro name bytes hfile
    obtain ⟨c, hc, hname, hbytes, d, hd, hkey, library, hlinked, hlibrary⟩ :=
      h.records name bytes ((hspared.entries .record name bytes).1 hfile)
    refine ⟨c, hc, hname, hbytes, d, hd, hkey, library, hlinked, ?_⟩
    exact (hspared.entries .library _ library).2 hlibrary
  · intro past c later hhistory hstored hlater
    obtain ⟨library, hholds⟩ := h.stored past c later hhistory hstored hlater
    exact ⟨library, hholds.linked, (hspared.entries .library _ library).2 hholds.library,
      (hspared.entries .record _ _).2 hholds.record⟩

theorem HasLibrary.concat {home : Place} {history : List StoreCall} {t : FileTree} {key : String}
    (h : HasLibrary home history t key) (c : StoreCall) :
    HasLibrary home (history ++ [c]) t key := by
  obtain ⟨d, hd, hlibrary⟩ := h
  exact ⟨d, List.mem_append_left _ hd, hlibrary⟩

/-- One of the calls is the last one, or comes before it. -/
theorem split_concat {α : Type} {history past later : List α} {c d : α}
    (h : history ++ [c] = past ++ d :: later) :
    (d = c ∧ later = []) ∨ ∃ later', later = later' ++ [c] ∧ history = past ++ d :: later' := by
  rcases List.eq_nil_or_concat later with rfl | ⟨later', x, rfl⟩
  · obtain ⟨-, hlast⟩ := List.append_inj' h rfl
    exact .inl ⟨by simpa using hlast.symm, rfl⟩
  · have hassoc : history ++ [c] = (past ++ d :: later') ++ [x] := by simpa using h
    obtain ⟨hhistory, hlast⟩ := List.append_inj' hassoc rfl
    have hx : c = x := by simpa using hlast
    exact .inr ⟨later', by rw [hx, List.concat_eq_append], hhistory⟩

/-- A call that stores nothing leaves a store as it is. -/
theorem Kept.concat {home : Place} {history : List StoreCall} {t : FileTree}
    (h : Kept home history t) {c : StoreCall} (hc : ¬ c.Stored) :
    Kept home (history ++ [c]) t := by
  refine ⟨h.stands, ?_, ?_⟩
  · intro name bytes hfile
    obtain ⟨d, hd, hname, hbytes, hlibrary⟩ := h.records name bytes hfile
    exact ⟨d, List.mem_append_left _ hd, hname, hbytes, hlibrary.concat c⟩
  · intro past d later hhistory hstored hlater
    rcases split_concat hhistory with ⟨rfl, -⟩ | ⟨later', rfl, hhistory'⟩
    · exact absurd hstored hc
    · refine h.stored past d later' hhistory' hstored ?_
      intro e he
      exact hlater e (List.mem_append_left _ he)

/-- A call that links a library may get so far with storing it. -/
theorem Kept.reached {home : Place} {history : List StoreCall} {t t' : FileTree}
    (h : Kept home history t) {c : StoreCall} (hhome : Path.resolve t.cwd c.store.root = home)
    {bytes : List UInt8} (hlinked : c.Linked bytes) {progress : Progress}
    (hreached : c.store.Reached t c.key bytes (c.record bytes.length).write progress t')
    (hstored : c.Stored → progress = .recorded) : Kept home (history ++ [c]) t' := by
  have hlast : c ∈ history ++ [c] := by simp
  have hplace : ∀ part key, c.store.place t.cwd part key = Part.placeIn part home key := by
    intro part key
    rw [place_eq, hhome]
  have hnew := hreached.node?_library
  have hother : ∀ (part : Part) (key : String), key ≠ c.key →
      t'.node? (part.placeIn home key) = t.node? (part.placeIn home key) := by
    intro part key hne
    rw [← hplace, hreached.node?_other hne]
  rw [hplace] at hnew
  -- the library of a key stays, unless it is replaced by the new one
  have hlibrary : ∀ key, HasLibrary home history t key → HasLibrary home (history ++ [c]) t' key := by
    rintro key ⟨d, hd, hkey, library, hd', hfile⟩
    have hold : t'.node? (Part.library.placeIn home key) = t.node? (Part.library.placeIn home key) →
        HasLibrary home (history ++ [c]) t' key := by
      intro hsame
      exact ⟨d, List.mem_append_left _ hd, hkey, library, hd', hsame.trans hfile⟩
    by_cases hc : key = c.key
    · subst hc
      rcases hnew with hnew | ⟨-, hsame⟩
      · exact ⟨c, hlast, rfl, bytes, hlinked, hnew⟩
      · exact hold hsame
    · exact hold (hother .library key hc)
  refine ⟨hreached.stands h.stands, ?_, ?_⟩
  · intro name b hfile
    rcases hreached.file_in_records hhome hfile with ⟨rfl, hname, hb⟩ | hfile
    · refine ⟨c, hlast, hname, ⟨bytes, hlinked, hb⟩, c, hlast, rfl, bytes, hlinked, ?_⟩
      rcases hnew with hnew | ⟨hcopied, -⟩
      · exact hnew
      · cases hcopied
    · obtain ⟨d, hd, hname, hb, hd'⟩ := h.records name b hfile
      exact ⟨d, List.mem_append_left _ hd, hname, hb, hlibrary d.key hd'⟩
  · intro past d later hhistory hd hlater
    rcases split_concat hhistory with ⟨rfl, -⟩ | ⟨later', rfl, hhistory'⟩
    · obtain rfl := hstored hd
      refine ⟨bytes, hlinked, ?_, ?_⟩
      · rcases hnew with hnew | ⟨hcopied, -⟩
        · exact hnew
        · cases hcopied
      · rw [← hplace, hreached.node, Progress.node?, if_pos rfl]
    · obtain ⟨library, hholds⟩ := h.stored past d later' hhistory' hd
        fun e he => hlater e (List.mem_append_left _ he)
      have hne : d.key ≠ c.key := fun heq => hlater c (by simp) heq.symm
      exact ⟨library, hholds.linked, (hother .library _ hne).trans hholds.library,
        (hother .record _ hne).trans hholds.record⟩

/-- A call that links a library may put it into the store, or fail to. -/
theorem Kept.put {home : Place} {history : List StoreCall} {t t' : FileTree}
    (h : Kept home history t) {c : StoreCall} (hhome : Path.resolve t.cwd c.store.root = home)
    {library : String} (hlinked : ∀ bytes, t.readFile library = .ok bytes → c.Linked bytes)
    (hapart : Path.resolve t.cwd library ≠ c.store.place t.cwd .staged c.key)
    {result : Except StoreError Entry} (hput : c.put library t = (result, t'))
    (hstored : c.Stored → ∀ e, result ≠ .error e) : Kept home (history ++ [c]) t' := by
  unfold StoreCall.put at hput
  have hcases := put_cases c.isKey_key hapart c.host.now c.command (c.host.duration "build" / 1000000)
    c.rendered.utf8ByteSize
  rw [hput] at hcases
  rcases hcases with ⟨e, he⟩ | ⟨bytes, progress, t₁, hread, hreached, ⟨e, he⟩ | ⟨hend, he⟩⟩
  · cases he
    exact h.concat fun hc => hstored hc e rfl
  · cases he
    exact h.reached hhome (hlinked bytes hread) hreached fun hc => absurd rfl (hstored hc e)
  · cases he
    exact h.reached hhome (hlinked bytes hread) hreached fun _ => hend

theorem Kept.call {history : List StoreCall} {c : StoreCall} (h : Kept c.home history c.before)
    (hspares : c.Spares) : Kept c.home (history ++ [c]) c.after := by
  rcases c.course h.stands hspares with ⟨hspared, hfound⟩ |
    ⟨a, files, result, stored, ha, horigin, hload, hbefore, hapart, hput, hafter, hreport⟩
  · refine (h.spared hspared).concat ?_
    rintro ⟨a, ha, horigin, -⟩
    rw [hfound a ha] at horigin
    cases horigin
  · have hhome : Path.resolve files.cwd c.store.root = c.home := by
      rw [hbefore.cwd, StoreCall.home]
    refine ((h.spared hbefore).put hhome ?_ hapart hput ?_).spared hafter
    · intro bytes hread
      exact ⟨a, files, ha, horigin, hload, hread⟩
    · rintro ⟨-, -, -, hquiet⟩ e he
      obtain ⟨reason, hreason⟩ := hreport e he
      exact hquiet reason hreason

theorem Runs.kept {s : Store} {start t : FileTree} {history : List StoreCall}
    (h : Runs (Path.resolve start.cwd s.root) start history t) (hstart : s.Fresh start) :
    Kept (Path.resolve start.cwd s.root) history t := by
  induction h with
  | start => exact hstart.kept
  | call _ c hbefore hhome hspares ih =>
      subst hbefore
      rw [← hhome] at ih ⊢
      exact ih.call hspares
  | opened _ root ih => exact ih.spared (spared_openAt _ root _)
  | moved _ cwd ih => exact ih.moved cwd
  | other _ hspared ih => exact ih.spared hspared

/-! ## What a lookup finds -/

/-- An entry that is found names its library by the path of a call with that key. -/
theorem Kept.binary_of_lookup {home : Place} {history : List StoreCall} {t : FileTree}
    (h : Kept home history t) (hyaml : StoreCall.ReadBack history) {s : Store}
    (hhome : Path.resolve t.cwd s.root = home) {key : String} {found : Entry}
    (hkey : '/' ∉ key.toList) (hfound : s.lookup t key = .ok (some found)) :
    ∃ c ∈ history, c.key = key ∧ found.metadata.binary = c.store.binaryPath key ∧
      t.Passes (c.store.binaryPath key) ∧ HasLibrary home history t key := by
  obtain ⟨-, hbinary, bytes, hread, hmetadata⟩ := lookup_eq_some_iff.1 hfound
  have hrecord := (FileTree.readFile_eq_ok_iff.1 hread).2
  rw [metadataPath_eq, resolve_path_of_home hhome .record hkey] at hrecord
  obtain ⟨c, hc, hname, ⟨library, hlinked, hbytes⟩, hlibrary⟩ := h.records _ _ hrecord
  obtain rfl : key = c.key := (Part.name_injective .rfl hname).2
  have hspelled : found.metadata.binary = c.store.binaryPath c.key := by
    rw [hbytes, hyaml c hc library hlinked, Option.some_inj] at hmetadata
    rw [← hmetadata, c.binary_record]
  rw [hspelled] at hbinary
  exact ⟨c, hc, rfl, hspelled, (FileTree.hasPath_iff.1 hbinary).1, hlibrary⟩

/-- If that path leads to the store, a call with that key has linked the library. -/
theorem Kept.linked_of_lookup {home : Place} {history : List StoreCall} {t : FileTree}
    (h : Kept home history t) (hyaml : StoreCall.ReadBack history) {s : Store}
    (hhome : Path.resolve t.cwd s.root = home)
    (hfinds : ∀ d ∈ history, Path.resolve t.cwd d.store.root = home) {key : String} {found : Entry}
    (hkey : '/' ∉ key.toList) (hfound : s.lookup t key = .ok (some found)) :
    ∃ c ∈ history, c.key = key ∧ ∃ library, c.Linked library ∧
      t.readFile found.metadata.binary = .ok library := by
  obtain ⟨c, hc, -, hspelled, hpasses, d, hd, hsame, library, hlinked, hfile⟩ :=
    h.binary_of_lookup hyaml hhome hkey hfound
  refine ⟨d, hd, hsame, library, hlinked, ?_⟩
  rw [hspelled, FileTree.readFile_eq_ok_iff]
  refine ⟨hpasses, ?_⟩
  rw [binaryPath_eq, resolve_path_of_home (hfinds c hc) .library hkey, hfile]

section

variable {home : Place} {t : FileTree} {c : StoreCall} {bytes : List UInt8}

/-- What a call has stored is found by all who can follow the paths of the record and, as it was
spelled then, of the library. -/
theorem Holds.lookup_eq (h : Holds home t c bytes) {s : Store}
    (hhome : Path.resolve t.cwd s.root = home) (hrecord : t.Passes (s.metadataPath c.key))
    (hbinary : t.hasPath (c.store.binaryPath c.key) = true)
    (hyaml : Metadata.read? (c.record bytes.length).write = some (c.record bytes.length)) :
    s.lookup t c.key = .ok (some ⟨c.key, c.record bytes.length⟩) := by
  have hread : t.readFile (s.metadataPath c.key) = .ok (c.record bytes.length).write := by
    rw [FileTree.readFile_eq_ok_iff]
    refine ⟨hrecord, ?_⟩
    rw [metadataPath_eq, resolve_path_of_home hhome .record c.isKey_key.no_slash, h.record]
  rw [← c.binary_record bytes.length] at hbinary
  exact lookup_eq_some_iff.2 ⟨rfl, hbinary, _, hread, hyaml⟩

theorem Holds.readFile_eq (h : Holds home t c bytes)
    (hfinds : Path.resolve t.cwd c.store.root = home)
    (hbinary : t.Passes (c.store.binaryPath c.key)) :
    t.readFile (c.store.binaryPath c.key) = .ok bytes := by
  rw [FileTree.readFile_eq_ok_iff]
  refine ⟨hbinary, ?_⟩
  rw [binaryPath_eq, resolve_path_of_home hfinds .library c.isKey_key.no_slash, h.library]

end

/-- **A store gives back what was put into it, as long as its root is found.**  Pipelines share a
store that was empty in the beginning and that nobody else touches, and have made some calls, in any
directories and with any spellings of the root.  Each of these spellings leads to the store from where
the next call is made, as absolute ones always do.

A call that loads its library from the store loads the bytes that an earlier call for the same
source and command compiled and linked.  No lookup of any key finds a library that was not linked.
And once a call has stored its library without a warning, the next call for the same source and
command finds it and asks no compiler, provided that the loader takes these bytes again, and that
two paths can be followed: to the record, as the later call spells it, and to the library, as the
earlier one did. -/
theorem store_sound {s : Store} {start : FileTree} {history : List StoreCall} {c : StoreCall}
    (hstart : s.Fresh start) (hruns : Runs (Path.resolve start.cwd s.root) start history c.before)
    (hhome : c.home = Path.resolve start.cwd s.root) (hfinds : ∀ d ∈ history, c.Finds d)
    (hdigest : Digest.CollisionFree ((history ++ [c]).map StoreCall.digested))
    (hyaml : StoreCall.ReadBack history) :
    (∀ a, c.outcome.1 = .ok a → a.origin = .store →
      ∃ d ∈ history, d.SameSource c ∧ ∃ library, d.Linked library ∧
        c.before.readFile a.library = .ok library) ∧
    (∀ key found, '/' ∉ key.toList → c.store.lookup c.before key = .ok (some found) →
      ∃ d ∈ history, d.key = key ∧ ∃ library, d.Linked library ∧
        c.before.readFile found.metadata.binary = .ok library) ∧
    ∀ past d later library, history = past ++ d :: later → d.SameSource c → d.Stored →
      (∀ e ∈ later, ¬ e.SameSource c) → d.Linked library →
      c.before.Passes (c.store.metadataPath c.key) → c.before.Passes (d.store.binaryPath c.key) →
      (∀ path, c.before.readFile path = .ok library →
        ∃ entry, c.host.load c.pipeline.loads c.before path = .ok entry) →
      ∃ a, c.outcome.1 = .ok a ∧ a.origin = .store ∧ c.before.readFile a.library = .ok library ∧
        c.outcome.2.1.counts.compilations = c.pipeline.counts.compilations ∧
        c.after = c.before ∧
        c.reports = [.event (.libraryLoaded a.library), .event (.storedLibraryReused c.key)] := by
  have hkept := hruns.kept hstart
  rw [← hhome] at hkept
  have hlast : c ∈ history ++ [c] := by simp
  have hmember : ∀ d ∈ history, d ∈ history ++ [c] := fun d hd => List.mem_append_left _ hd
  refine ⟨?_, ?_, ?_⟩
  · intro a ha horigin
    obtain ⟨found, hfound, hlibrary⟩ := c.exists_found (c.searched_of_origin ha horigin)
    obtain ⟨d, hd, hsame, library, hlinked, hread⟩ :=
      hkept.linked_of_lookup hyaml rfl hfinds c.isKey_key.no_slash hfound
    refine ⟨d, hd, StoreCall.sameSource_of_key_eq hdigest (hmember d hd) hlast hsame, library,
      hlinked, ?_⟩
    rw [hlibrary, hread]
  · intro key found hkey hfound
    exact hkept.linked_of_lookup hyaml rfl hfinds hkey hfound
  · intro past d later library hhistory hsource hstored hlater hlinked hrecord hbinary hload
    have hd : d ∈ history := by simp [hhistory]
    have hkeys : ∀ e ∈ later, e.key ≠ d.key := by
      intro e he hkey
      have hmem : e ∈ history := by simp [hhistory, he]
      refine hlater e he ?_
      exact StoreCall.sameSource_of_key_eq hdigest (hmember e hmem) hlast
        (hkey.trans hsource.key_eq)
    obtain ⟨bytes, hholds⟩ := hkept.stored past d later hhistory hstored hkeys
    have hbytes : bytes = library := StoreCall.Linked.unique d hholds.linked hlinked
    subst hbytes
    rw [← hsource.key_eq] at hrecord hbinary
    have hread := hholds.readFile_eq (hfinds d hd) hbinary
    have hexists : c.before.hasPath (d.store.binaryPath d.key) = true :=
      FileTree.hasPath_iff.2 ⟨hbinary, _, (FileTree.readFile_eq_ok_iff.1 hread).2⟩
    have hfound := hholds.lookup_eq rfl hrecord hexists (hyaml d hd bytes hlinked)
    obtain ⟨entry, hentry⟩ := hload _ hread
    rw [← d.binary_record bytes.length] at hread hentry
    rw [hsource.key_eq] at hfound
    obtain ⟨a, ha, horigin, hlibrary, hrest⟩ := c.outcome_of_found hfound hentry
    rw [← hlibrary] at hread
    exact ⟨a, ha, horigin, hread, hrest⟩

end Store

/-! ## Two pipelines

A source with a zero character in it is built by one pipeline and asked for by another.  They work in
different directories and spell the root of their store differently. -/

/-- A compiler that writes the library and nothing else spares the store. -/
theorem StoreCall.spares_of_writes {c : StoreCall} (hstands : Store.Stands c.home c.before)
    (h : ∀ l files, (Pipeline.compilation c.host l c.command files).files = files ∨
      ∃ bytes, files.writeFile l.library bytes =
        .ok (Pipeline.compilation c.host l c.command files).files) : c.Spares := by
  intro l m hprepared
  have hstands' : Store.Stands c.home c.searched.2.2.files := by
    rw [c.files_searched]
    exact hstands
  obtain ⟨-, hbeside, hl, -⟩ := Pipeline.spared_of_prepare_eq_ok hstands' hprepared
  rcases h l m.files with hsame | ⟨bytes, hwrite⟩
  · rw [hsame]
    exact .refl c.home m.files
  · obtain ⟨x, hx, hlibrary⟩ := hl.library
    rw [hlibrary] at hwrite
    exact hbeside.spared_write hx hwrite

namespace SharedStore

/-- The loader takes any library. -/
def host : Host :=
  Scripted.host (fun _ => 0) "/tmp" (Scripted.loadNumbered [] []) []

/-- A call with this root. -/
def asks (root : String) (files : FileTree) : StoreCall where
  store := ⟨root⟩
  pipeline := { workDir := none, saveIntermediates := false, store := some ⟨root⟩ }
  host := host
  machine := ⟨files, 0, ⟨[]⟩, []⟩
  rendered := "n\x00"
  command := "native-cc"
  uses := rfl
  no_nul := by decide

variable {root root' : String} {files files' : FileTree}

theorem eq_writes_of_native {arguments : List String} {ended : Finished}
    (h : host.toolchain "native-cc" arguments files = .ok ended) :
    ended = Scripted.writes Scripted.nativeLibrary arguments files := by
  unfold host Scripted.host Toolchain.ofPrograms at h
  dsimp only at h
  split at h
  · cases h
  · exact (Except.ok.inj h).symm

theorem asks_spares (hopen : Store.IsOpen ⟨root⟩ files) : (asks root files).Spares := by
  refine StoreCall.spares_of_writes hopen.stands ?_
  intro l t
  change (Pipeline.compilation host l "native-cc" t).files = t ∨ ∃ bytes,
    t.writeFile l.library bytes = .ok (Pipeline.compilation host l "native-cc" t).files
  rcases Pipeline.files_compilation host l "native-cc" t with
    hsame | ⟨c, ended, hparse, hrun, hfiles⟩
  · exact .inl hsame
  · obtain rfl : (⟨"native-cc", []⟩ : Command) = c := Option.some.inj hparse
    rw [hfiles, eq_writes_of_native hrun]
    have hlibrary : (Scripted.sourceAndLibrary
        (Toolchain.compilerArguments [] l.source l.library)).2 = l.library := rfl
    unfold Scripted.writes
    rw [hlibrary]
    cases hwrite : t.writeFile l.library Scripted.nativeLibrary with
    | error e => exact .inl rfl
    | ok files' => exact .inr ⟨_, hwrite⟩

/-- The directories of a store with nothing in them. -/
def emptyStore : Branch :=
  .directory [("binaries", .directory []), ("metadata", .directory [])]

theorem fresh_of_emptyStore (hopen : Store.IsOpen ⟨root⟩ files)
    (hempty : files.top.get? (asks root files).home = some emptyStore) :
    Store.Fresh ⟨root⟩ files := by
  refine ⟨hopen, ?_⟩
  intro part name bytes
  have hhome : Path.resolve files.cwd root = (asks root files).home := rfl
  rw [Store.Part.resolve_dir, hhome, Store.Part.shelf, List.append_assoc, FileTree.node?,
    Branch.get?_append, hempty]
  intro hfile
  cases part with
  | library => cases hfile
  | staged => cases hfile
  | record => cases hfile

/-- The first call has stored its library, and the second one asks for the same with a root that leads
to the same store. -/
structure AsksAgain (first second : StoreCall) : Prop where
  fresh : first.store.Fresh first.before
  runs : Store.Runs first.home first.before [first] second.before
  home : second.home = first.home
  linked : first.Linked Scripted.nativeLibrary
  stored : first.Stored
  readBack : StoreCall.ReadBack [first]
  sameSource : first.SameSource second
  loads : ∀ path, ∃ entry, second.host.load second.pipeline.loads second.before path = .ok entry

theorem AsksAgain.holds {first second : StoreCall} (h : AsksAgain first second) :
    Store.Holds second.home second.before first Scripted.nativeLibrary := by
  obtain ⟨library, hholds⟩ :=
    (h.runs.kept h.fresh).stored [] first [] rfl h.stored (List.forall_mem_nil _)
  rw [StoreCall.Linked.unique first hholds.linked h.linked] at hholds
  rw [h.home]
  exact hholds

/-- What there is to compute. -/
theorem asksAgain (hopen : Store.IsOpen ⟨root⟩ files)
    (hempty : files.top.get? (asks root files).home = some emptyStore)
    (hruns : Store.Runs (asks root files).home files [asks root files] (asks root files).after →
      Store.Runs (asks root files).home files [asks root files] files')
    (hhome : (asks root' files').home = (asks root files).home)
    (hrun : (asks root files).outcome.1 = .ok ⟨0, "/tmp/doping-000000/spec_0.so", .compiled⟩ ∧
      (asks root files).atLoad.map (·.readFile "/tmp/doping-000000/spec_0.so") =
        some (.ok Scripted.nativeLibrary) ∧
      (asks root files).reports.all (fun
        | .event (.storeFailed _ _) => false
        | _ => true) = true)
    (hrecord : Metadata.read? ((asks root .empty).record Scripted.nativeLibrary.length).write =
      some ((asks root .empty).record Scripted.nativeLibrary.length)) :
    AsksAgain (asks root files) (asks root' files') := by
  obtain ⟨houtcome, hload, hquiet⟩ := hrun
  obtain ⟨atLoad, hfiles, hread⟩ := Option.map_eq_some_iff.1 hload
  have hlinked : (asks root files).Linked Scripted.nativeLibrary :=
    ⟨_, atLoad, houtcome, rfl, hfiles, hread⟩
  refine ⟨fresh_of_emptyStore hopen hempty,
    hruns (.call .start _ rfl rfl (asks_spares hopen)), hhome, hlinked, ⟨_, houtcome, rfl, ?_⟩, ?_,
    ⟨rfl, rfl⟩, fun _ => ⟨_, rfl⟩⟩
  · intro reason hmem
    exact Bool.false_ne_true (List.all_eq_true.1 hquiet _ hmem)
  · intro c hc library hlibrary
    rw [List.mem_singleton] at hc
    subst hc
    rw [StoreCall.Linked.unique _ hlibrary hlinked]
    exact hrecord

/-- The path of a record in a root that never goes up. -/
theorem passes_metadataPath (h : Store.Stands (asks root files).home files)
    (hup : ".." ∉ Path.route files.cwd (Store.metadataDir ⟨root⟩))
    (hspelled : Path.Spelled files.cwd ((asks root files).store.metadataPath (asks root files).key)) :
    files.Passes ((asks root files).store.metadataPath (asks root files).key) := by
  rw [Store.metadataPath_eq] at hspelled ⊢
  exact h.passes rfl .record (asks root files).isKey_key.no_slash hup hspelled

end SharedStore

namespace SharedStore

/-- The first call is made in `/a`, with a root that goes through `/x`. -/
def first : StoreCall :=
  asks "/x/../s" ⟨["a"], [("tmp", .directory []), ("a", .directory []), ("b", .directory []),
    ("x", .directory []), ("s", emptyStore)]⟩

/-- The second one is made in `/b`, with a shorter root. -/
def second : StoreCall :=
  asks "/s" { first.after with cwd := ["b"] }

theorem first_isOpen : first.store.IsOpen first.before :=
  fun part => by cases part <;> decide

theorem first_run :
    first.outcome.1 = .ok ⟨0, "/tmp/doping-000000/spec_0.so", .compiled⟩ ∧
      first.atLoad.map (·.readFile "/tmp/doping-000000/spec_0.so") =
        some (.ok Scripted.nativeLibrary) ∧
      first.reports.all (fun
        | .event (.storeFailed _ _) => false
        | _ => true) = true := by
  decide +kernel

theorem first_record :
    Metadata.read? ((asks "/x/../s" .empty).record Scripted.nativeLibrary.length).write =
      some ((asks "/x/../s" .empty).record Scripted.nativeLibrary.length) := by
  rw [Metadata.read?_write, Metadata.toList_text]
  decide +kernel

theorem asksAgain_second : AsksAgain first second :=
  asksAgain first_isOpen rfl (.moved · ["b"]) rfl first_run first_record

theorem second_passes : second.before.Passes (second.store.metadataPath second.key) ∧
    second.before.Passes (first.store.binaryPath second.key) := by
  refine ⟨passes_metadataPath ?_ (by decide) ?_, ?_⟩
  · have hkept := asksAgain_second.runs.kept asksAgain_second.fresh
    exact hkept.stands
  · exact ⟨by decide +kernel, by decide +kernel, by decide +kernel, by decide +kernel⟩
  · have hbinary : second.before.hasPath (first.store.binaryPath second.key) = true := by
      decide +kernel
    exact (FileTree.hasPath_iff.1 hbinary).1

end SharedStore

open SharedStore in
/-- The second pipeline gets the library that the first one has built, and asks no compiler. -/
theorem store_sound_second_pipeline :
    AsksAgain first second ∧ first.before.cwd ≠ second.before.cwd ∧
      first.store ≠ second.store ∧ second.before.Passes (second.store.metadataPath second.key) ∧
      second.before.Passes (first.store.binaryPath second.key) ∧
      ∃ a, second.outcome.1 = .ok a ∧ a.origin = .store ∧
        second.before.readFile a.library = .ok Scripted.nativeLibrary ∧
        second.outcome.2.1.counts.compilations = 0 := by
  have hagain := asksAgain_second
  have hfinds : ∀ d ∈ [first], second.Finds d := by
    intro d hd
    rw [List.mem_singleton.1 hd]
    exact StoreCall.finds_of_isAbsolute rfl rfl
  have hdigest : Digest.CollisionFree (([first] ++ [second]).map StoreCall.digested) := by
    have hsame : second.digested = first.digested := rfl
    simp [Digest.CollisionFree, hsame]
  obtain ⟨-, -, hstored⟩ :=
    Store.store_sound hagain.fresh hagain.runs hagain.home hfinds hdigest hagain.readBack
  obtain ⟨a, ha, horigin, hread, hcounts, -⟩ := hstored [] first [] Scripted.nativeLibrary rfl
    hagain.sameSource hagain.stored (by simp) hagain.linked second_passes.1 second_passes.2
    fun path _ => hagain.loads path
  exact ⟨hagain, by decide, by decide, second_passes.1, second_passes.2, a, ha, horigin, hread,
    hcounts⟩

/-! ## Roots that are not found

A record names its library by the path of the call that has stored it.  After a directory on the way
is gone this path leads nowhere, and if the root is not absolute, it leads somewhere else from another
directory. -/

namespace SharedStore

/-- A call like the second one, made in `/a` after `/x` has been removed. -/
def withoutX : StoreCall :=
  asks "/s" (first.after.drop ["x"])

theorem asksAgain_withoutX : AsksAgain first withoutX := by
  have hhome : first.home = ["s"] := by decide
  have hhome' : withoutX.home = first.home :=
    (Path.resolve_of_isAbsolute rfl _ ["a"]).trans (by decide)
  have hspared : Store.Spared first.home first.after (first.after.drop ["x"]) := by
    rw [hhome]
    refine .of_drop (fun part => by cases part <;> decide) ?_
    intro part name bytes heq
    simp [Store.Part.shelf] at heq
  exact asksAgain first_isOpen rfl (.other · hspared) hhome' first_run first_record

/-- The path of the library leads through a directory that is not there. -/
theorem not_passes_withoutX : ¬ withoutX.before.Passes (first.store.binaryPath withoutX.key) := by
  intro hpasses
  rw [Store.binaryPath_eq, Store.path, FileTree.passes_join_iff
    (Store.Part.library.isComponent_name withoutX.isKey_key.no_slash) (Store.Part.dir_ne_empty _ _)
    (Store.Part.getLast?_dir _ _)] at hpasses
  have hx : withoutX.before.node? ["x"] = some .directory :=
    (FileTree.isDirectory_iff.1 hpasses.2).1.2 ["x"] (by decide)
  have hdropped : withoutX.before.node? ["x"] = none := by
    change (first.after.drop ["x"]).node? ["x"] = none
    rw [FileTree.node?_drop _ (by decide), if_pos List.prefix_rfl]
  rw [hdropped] at hx
  cases hx

/-- The first call is made in `/a`, and its root is `s`.  There is a file with the name of its library
where the same root would lead from `/b`. -/
def inA : StoreCall :=
  asks "s" ⟨["a"], [("tmp", .directory []), ("a", .directory [("s", emptyStore)]),
    ("b", .directory [("s", .directory [("binaries", .directory
      [(Store.Part.library.name (Store.fingerprint "n\x00" "native-cc"), .file [1])])])])]⟩

/-- The second one is made in `/b`, and its root is `/a/s`. -/
def inB : StoreCall :=
  asks "/a/s" { inA.after with cwd := ["b"] }

theorem asksAgain_inB : AsksAgain inA inB := by
  refine asksAgain (fun part => by cases part <;> decide) rfl (.moved · ["b"]) rfl ?_ ?_
  · decide +kernel
  · rw [Metadata.read?_write, Metadata.toList_text]
    decide +kernel

theorem inB_readFile : inB.before.readFile (inA.store.binaryPath inB.key) = .ok [1] := by
  decide +kernel

theorem inB_passes : inB.before.Passes (inB.store.metadataPath inB.key) := by
  refine passes_metadataPath ?_ (by decide) ?_
  · exact (asksAgain_inB.runs.kept asksAgain_inB.fresh).stands
  · exact ⟨by decide +kernel, by decide +kernel, by decide +kernel, by decide +kernel⟩

end SharedStore

open SharedStore in
/-- **A stored library can be missed, and another one can be taken for it.**  A call whose root goes
through `/x` has stored a library; when `/x` is gone, another call of the same store does not find it.
And a call in `/a` has stored a library with the root `s`; a call in `/b` that knows this store as
`/a/s` loads, as if it had been stored, what is at `s` below `/b`. -/
theorem store_misled :
    (AsksAgain first withoutX ∧ ∀ a, withoutX.outcome.1 = .ok a → a.origin ≠ .store) ∧
    AsksAgain inA inB ∧ ∃ a, inB.outcome.1 = .ok a ∧ a.origin = .store ∧
      inB.before.readFile a.library = .ok [1] ∧ ¬ inA.Linked [1] := by
  refine ⟨⟨asksAgain_withoutX, ?_⟩, asksAgain_inB, ?_⟩
  · intro a ha horigin
    obtain ⟨found, hfound, -⟩ := withoutX.exists_found (withoutX.searched_of_origin ha horigin)
    have hagain := asksAgain_withoutX
    obtain ⟨c, hc, -, -, hpasses, -⟩ := (hagain.runs.kept hagain.fresh).binary_of_lookup
      hagain.readBack hagain.home withoutX.isKey_key.no_slash hfound
    rw [List.mem_singleton.1 hc] at hpasses
    exact not_passes_withoutX hpasses
  · obtain ⟨hpasses, hfile⟩ := FileTree.readFile_eq_ok_iff.1 inB_readFile
    have hfound := asksAgain_inB.holds.lookup_eq rfl inB_passes
      (FileTree.hasPath_iff.2 ⟨hpasses, _, hfile⟩) (asksAgain_inB.readBack _ (by simp) _
        asksAgain_inB.linked)
    obtain ⟨entry, hentry⟩ := asksAgain_inB.loads
      (inA.record Scripted.nativeLibrary.length).binary
    obtain ⟨a, ha, horigin, hlibrary, -⟩ := inB.outcome_of_found hfound hentry
    refine ⟨a, ha, horigin, ?_, ?_⟩
    · rw [hlibrary, inA.binary_record]
      exact inB_readFile
    · intro hlinked
      have hbytes := StoreCall.Linked.unique inA hlinked asksAgain_inB.linked
      revert hbytes
      decide

end Loopsmith
