import Loopsmith.Proofs.Files.Directories
import Loopsmith.Proofs.Store.Effects

/-!
# What is stored is what is found

A library that was stored is found under its key, with the bytes that it had, and its record says
what it was given.  For other keys nothing changes, and if the library could not be stored nothing
changes for any key, whatever was on the disk before (`Store.lookup_put`).

A lookup goes to the place that a record names, and a record may name any place.  So storing a
library can be noticed under another key after all, if the record of that key names one of the
three files that are written: the library, the copy that it is moved from, or the record.  If
storing fails the record has not been written, which leaves two.

The library to be stored may be any file as well, but for the file that it is copied to: this one is
emptied before it is read.
-/

namespace Loopsmith
namespace Store

/-- The record of a key says that its library is at this place. -/
def RecordNames (s : Store) (t : FileTree) (key : String) (p : Place) : Prop :=
  ∃ m, Metadata.readFrom t (s.metadataPath key) = .ok m ∧ Path.resolve t.cwd m.binary = p

/-- A lookup of the key comes to the same, and what it finds has the same bytes. -/
structure SameFound (s : Store) (t t' : FileTree) (key : String) : Prop where
  lookup : s.lookup t' key = s.lookup t key
  library : ∀ found, s.lookup t key = .ok (some found) → ∀ bytes,
    t'.readFile found.metadata.binary = .ok bytes ↔ t.readFile found.metadata.binary = .ok bytes

theorem SameFound.refl (s : Store) (t : FileTree) (key : String) : s.SameFound t t key :=
  ⟨rfl, fun _ _ _ => .rfl⟩

/-! ## What a lookup depends on -/

section

variable {s : Store} {t t' : FileTree} {key : String}

theorem lookup_of_hasPath (hpath : t.hasPath (s.metadataPath key) = true) :
    s.lookup t key = (Metadata.readFrom t (s.metadataPath key)).map fun m =>
      if t.hasPath m.binary then some ⟨key, m⟩ else none := by
  rw [lookup, hpath]
  cases Metadata.readFrom t (s.metadataPath key) with
  | error e => rfl
  | ok m => rfl

/-- A lookup goes to two places: to the record of the key and to the library that it names. -/
theorem sameFound_of_nodes (hcwd : t'.cwd = t.cwd)
    (hpasses : ∀ path, t'.Passes path ↔ t.Passes path)
    (hrecord : t'.node? (Path.resolve t.cwd (s.metadataPath key)) =
      t.node? (Path.resolve t.cwd (s.metadataPath key)))
    (hlibrary : ∀ p, s.RecordNames t key p → t'.node? p = t.node? p) : s.SameFound t t' key := by
  have hhas : ∀ path, t'.node? (Path.resolve t.cwd path) = t.node? (Path.resolve t.cwd path) →
      t'.hasPath path = t.hasPath path := by
    intro path hnode
    rw [Bool.eq_iff_iff, FileTree.hasPath_iff, FileTree.hasPath_iff, hpasses, hcwd, hnode]
  refine ⟨?_, ?_⟩
  · cases hpath : t.hasPath (s.metadataPath key) with
    | false =>
        have hpath' := (hhas _ hrecord).trans hpath
        rw [lookup, lookup, hpath, hpath']
        rfl
    | true =>
        have hpath' := (hhas _ hrecord).trans hpath
        obtain ⟨hway, n, hn⟩ := FileTree.hasPath_iff.1 hpath
        have hfind : t.find (s.metadataPath key) = .ok n := FileTree.find_eq_ok_iff.2 ⟨hway, hn⟩
        have hfind' : t'.find (s.metadataPath key) = .ok n := by
          rw [FileTree.find_eq_ok_iff, hpasses, hcwd, hrecord]
          exact ⟨hway, hn⟩
        have hsame : Metadata.readFrom t' (s.metadataPath key) =
            Metadata.readFrom t (s.metadataPath key) := by
          rw [Metadata.readFrom, Metadata.readFrom, hfind, hfind']
        rw [lookup_of_hasPath hpath, lookup_of_hasPath hpath', hsame]
        cases hm : Metadata.readFrom t (s.metadataPath key) with
        | error e => rfl
        | ok m =>
            rw [Except.map, Except.map, hhas m.binary (hlibrary _ ⟨m, hm, rfl⟩)]
  · intro found hfound bytes
    obtain ⟨-, -, hbytes⟩ := lookup_eq_some_iff.1 hfound
    have hnode := hlibrary _ ⟨_, readFrom_eq_ok_iff.2 hbytes, rfl⟩
    rw [FileTree.readFile_eq_ok_iff, FileTree.readFile_eq_ok_iff, hpasses, hcwd, hnode]

end

/-! ## While a library is stored -/

namespace Reached

variable {s : Store} {t t' : FileTree} {key : String} {library record : List UInt8}
  {progress : Progress}

/-- A key whose record is elsewhere, and names a place elsewhere, does not notice. -/
theorem sameFound (h : s.Reached t key library record progress t') {other : String}
    (hrecord : ∀ part ∈ progress.touched,
      Path.resolve t.cwd (s.metadataPath other) ≠ s.place t.cwd part key)
    (hnames : ∀ part ∈ progress.touched, ¬ s.RecordNames t other (s.place t.cwd part key)) :
    s.SameFound t t' other := by
  refine sameFound_of_nodes h.cwd h.passes_iff (h.node?_elsewhere hrecord) ?_
  intro p hp
  refine h.node?_elsewhere fun part hpart heq => ?_
  exact hnames part hpart (heq ▸ hp)

/-- In the end the library is found through its record. -/
theorem lookup_eq (h : s.Reached t key library record .recorded t') (hkey : IsKey key)
    (hpasses : ∀ part, t.Passes (s.path part key)) {m : Metadata}
    (hread : Metadata.read? record = some m) (hm : m.binary = s.binaryPath key) :
    s.lookup t' key = .ok (some ⟨key, m⟩) ∧ t'.readFile m.binary = .ok library := by
  have hbytes : t'.readFile m.binary = .ok library := by
    have hne : s.place t.cwd .library key ≠ s.place t.cwd .record key := by
      intro heq
      cases (place_injective heq).1
    rw [FileTree.readFile_eq_ok_iff, hm, h.passes_iff, h.cwd, binaryPath_eq,
      resolve_path s _ .library hkey.no_slash, h.node, Progress.node?, if_neg hne, if_pos rfl]
    exact ⟨hpasses .library, rfl⟩
  have hrecorded : t'.readFile (s.metadataPath key) = .ok record := by
    rw [FileTree.readFile_eq_ok_iff, h.passes_iff, h.cwd, metadataPath_eq,
      resolve_path s _ .record hkey.no_slash, h.node, Progress.node?, if_pos rfl]
    exact ⟨hpasses .record, rfl⟩
  refine ⟨lookup_eq_some_iff.2 ⟨rfl, ?_, record, hrecorded, hread⟩, hbytes⟩
  obtain ⟨hway, hnode⟩ := FileTree.readFile_eq_ok_iff.1 hbytes
  exact FileTree.hasPath_iff.2 ⟨hway, _, hnode⟩

end Reached

/-! ## When a library is stored -/

/-- There is room for the files of a key: their paths lead into directories, and not to one. -/
def HasRoom (s : Store) (t : FileTree) (key : String) : Prop :=
  ∀ part, t.Passes (s.path part key) ∧ t.node? (s.place t.cwd part key) ≠ some .directory

theorem librarySize_of_readFile {t : FileTree} {path : String} {bytes : List UInt8}
    (h : t.readFile path = .ok bytes) : librarySize t path = .ok bytes.length := by
  rw [FileTree.readFile_eq_ok_iff, ← FileTree.find_eq_ok_iff] at h
  rw [librarySize, h]

theorem getLast?_path (s : Store) (part : Part) {key : String} (hkey : IsKey key) :
    (s.path part key).toList.getLast? ≠ some '/' :=
  Path.getLast?_join (part.isComponent_name hkey.no_slash) _

namespace Reached

variable {s : Store} {t t' : FileTree} {key : String} {library record : List UInt8}
  {progress : Progress}

theorem hasRoom (h : s.Reached t key library record progress t') (hkey : IsKey key)
    (hroom : s.HasRoom t key) (part : Part) :
    t'.Passes (s.path part key) ∧
      t'.node? (Path.resolve t'.cwd (s.path part key)) ≠ some .directory := by
  rw [h.passes_iff, h.cwd, resolve_path s t.cwd part hkey.no_slash, Ne, h.directory_iff]
  exact hroom part

/-- Where a directory was there would still be one. -/
theorem not_directory (h : s.Reached t key library record .recorded t') (part : Part) :
    t.node? (s.place t.cwd part key) ≠ some .directory := by
  intro hdir
  have hdir' := h.directories _ hdir
  rw [h.node, Progress.node?] at hdir'
  cases part with
  | record =>
      rw [if_pos rfl] at hdir'
      cases hdir'
  | library =>
      split at hdir'
      · cases hdir'
      · rw [if_pos rfl] at hdir'
        cases hdir'
  | staged =>
      split at hdir'
      · cases hdir'
      · split at hdir'
        · cases hdir'
        · rw [if_pos rfl] at hdir'
          cases hdir'

theorem readFile_staged (h : s.Reached t key library record .copied t') (hkey : IsKey key)
    (hroom : s.HasRoom t key) : t'.readFile (s.path .staged key) = .ok library := by
  rw [FileTree.readFile_eq_ok_iff, h.cwd, resolve_path s t.cwd .staged hkey.no_slash, h.node,
    Progress.node?, if_pos rfl]
  exact ⟨(h.hasRoom hkey hroom .staged).1, rfl⟩

theorem readFile_library (h : s.Reached t key library record .published t') (hkey : IsKey key)
    (hroom : s.HasRoom t key) : t'.readFile (s.path .library key) = .ok library := by
  rw [FileTree.readFile_eq_ok_iff, h.cwd, resolve_path s t.cwd .library hkey.no_slash, h.node,
    Progress.node?, if_pos rfl]
  exact ⟨(h.hasRoom hkey hroom .library).1, rfl⟩

end Reached

theorem Progress.not_mem_touched {progress : Progress} (h : progress ≠ .recorded) :
    Part.record ∉ progress.touched := by
  cases progress with
  | copied => decide
  | published => decide
  | recorded => exact absurd rfl h

section

variable {s : Store} {t : FileTree} {key library command : String} {now : Timestamp}
  {ms length : Nat}

theorem exists_put (hkey : IsKey key) {bytes : List UInt8} (hread : t.readFile library = .ok bytes)
    (hroom : s.HasRoom t key) :
    ∃ entry, (s.put t now key library command ms length).1 = .ok entry := by
  have hcopy : ∃ staged, t.copy library (s.stagingPath key) = .ok staged := by
    obtain ⟨hpasses, hnot⟩ := hroom .staged
    rw [← resolve_path s t.cwd .staged hkey.no_slash] at hnot
    rw [stagingPath_eq s hkey]
    exact hpasses.exists_copy (s.getLast?_path .staged hkey) hnot hread
  obtain ⟨staged, hcopy⟩ := hcopy
  obtain ⟨hcopied, -⟩ := reached_copied hkey hread hcopy
    (s.recordOf now key command (s.copyOf t key library bytes).length ms length).write
  have hrename : ∃ moved, staged.rename (s.stagingPath key) (s.binaryPath key) = .ok moved := by
    obtain ⟨hpasses, hnot⟩ := hcopied.hasRoom hkey hroom .library
    rw [stagingPath_eq s hkey, binaryPath_eq]
    exact hpasses.exists_rename hnot (hcopied.readFile_staged hkey hroom)
  obtain ⟨moved, hrename⟩ := hrename
  obtain ⟨hpublished, -⟩ := reached_published hkey hcopied hrename
  have hsize : librarySize moved (s.binaryPath key) =
      .ok (s.copyOf t key library bytes).length := by
    rw [binaryPath_eq]
    exact librarySize_of_readFile (hpublished.readFile_library hkey hroom)
  obtain ⟨hpasses, hnot⟩ := hpublished.hasRoom hkey hroom .record
  have hlast := s.getLast?_path .record hkey
  rw [← metadataPath_eq] at hpasses hnot hlast
  generalize (s.copyOf t key library bytes).length = size at hsize
  have hwrite : ∃ recorded, (s.recordOf now key command size ms length).writeTo moved
      (s.metadataPath key) = .ok recorded := by
    unfold Metadata.writeTo
    rw [hpasses.writeFile hlast hnot]
    exact ⟨_, rfl⟩
  obtain ⟨recorded, hwrite⟩ := hwrite
  refine ⟨⟨key, s.recordOf now key command size ms length⟩, ?_⟩
  rw [recordOf] at hwrite ⊢
  simp only [put, publish, hcopy, hrename, hsize, hwrite]

/-- What it means that a library was stored. -/
theorem reached_of_put (hkey : IsKey key) {entry : Entry}
    (hput : (s.put t now key library command ms length).1 = .ok entry) :
    ∃ bytes, t.readFile library = .ok bytes ∧
      entry = ⟨key, s.recordOf now key command (s.copyOf t key library bytes).length ms length⟩ ∧
      s.Reached t key (s.copyOf t key library bytes) entry.metadata.write .recorded
        (s.put t now key library command ms length).2 ∧
      ∀ part, t.Passes (s.path part key) := by
  rcases put_course hkey library now command ms length with
    ⟨e, he⟩ | ⟨bytes, progress, t', hread, hreached, ⟨-, e, he⟩ | ⟨rfl, he, hpasses⟩⟩
  · rw [he] at hput
    cases hput
  · rw [he] at hput
    cases hput
  · rw [he] at hput ⊢
    cases hput
    exact ⟨bytes, hread, rfl, hreached, hpasses⟩

/-- A library is stored if it can be read and there is room for the files of its key, and only
then. -/
theorem exists_put_iff (hkey : IsKey key) :
    (∃ entry, (s.put t now key library command ms length).1 = .ok entry) ↔
      (∃ bytes, t.readFile library = .ok bytes) ∧ s.HasRoom t key := by
  refine ⟨?_, fun ⟨⟨bytes, hread⟩, hroom⟩ => exists_put hkey hread hroom⟩
  rintro ⟨entry, hput⟩
  obtain ⟨bytes, hread, -, hreached, hpasses⟩ := reached_of_put hkey hput
  exact ⟨⟨bytes, hread⟩, fun part => ⟨hpasses part, hreached.not_directory part⟩⟩

/-- What was stored is found. -/
theorem lookup_of_put (hkey : IsKey key) {entry : Entry}
    (hput : (s.put t now key library command ms length).1 = .ok entry)
    (hyaml : Metadata.read? entry.metadata.write = some entry.metadata) :
    ∃ bytes, t.readFile library = .ok bytes ∧
      entry = ⟨key, s.recordOf now key command (s.copyOf t key library bytes).length ms length⟩ ∧
      s.lookup (s.put t now key library command ms length).2 key = .ok (some entry) ∧
      (s.put t now key library command ms length).2.readFile entry.metadata.binary =
        .ok (s.copyOf t key library bytes) := by
  obtain ⟨bytes, hread, rfl, hreached, hpasses⟩ := reached_of_put hkey hput
  exact ⟨bytes, hread, rfl, hreached.lookup_eq hkey hpasses hyaml rfl⟩

/-- Whether or not the library is stored, a key does not notice whose record is elsewhere and
names a place elsewhere. -/
theorem sameFound_put (hkey : IsKey key) {other : String}
    (hrecord : Path.resolve t.cwd (s.metadataPath other) ≠ s.place t.cwd .record key)
    (hnames : ∀ part, ¬ s.RecordNames t other (s.place t.cwd part key)) :
    s.SameFound t (s.put t now key library command ms length).2 other := by
  have hpart : ∀ part, Path.resolve t.cwd (s.metadataPath other) ≠ s.place t.cwd part key := by
    intro part
    by_cases hpart : part = .record
    · rwa [hpart]
    · rw [metadataPath_eq]
      exact s.resolve_path_ne t.cwd (Ne.symm hpart) other key
  rcases put_course hkey library now command ms length with
    ⟨e, he⟩ | ⟨bytes, progress, t', -, hreached, ⟨-, e, he⟩ | ⟨-, he, -⟩⟩
  · rw [he]
    exact .refl s t other
  · rw [he]
    exact hreached.sameFound (fun part _ => hpart part) fun part _ => hnames part
  · rw [he]
    exact hreached.sameFound (fun part _ => hpart part) fun part _ => hnames part

/-- If the library is not stored, no record has changed. -/
theorem sameFound_of_put_eq_error (hkey : IsKey key) {e : StoreError}
    (hput : (s.put t now key library command ms length).1 = .error e) {other : String}
    (hnames : ∀ part, part ≠ .record → ¬ s.RecordNames t other (s.place t.cwd part key)) :
    s.SameFound t (s.put t now key library command ms length).2 other := by
  rcases put_course hkey library now command ms length with
    ⟨e, he⟩ | ⟨bytes, progress, t', -, hreached, ⟨hprogress, e, he⟩ | ⟨-, he, -⟩⟩
  · rw [he]
    exact .refl s t other
  · have hpart : ∀ part ∈ progress.touched, part ≠ .record := by
      rintro part hpart rfl
      exact Progress.not_mem_touched hprogress hpart
    rw [he]
    refine hreached.sameFound (fun part hmem => ?_) fun part hmem => hnames part (hpart part hmem)
    rw [metadataPath_eq]
    exact s.resolve_path_ne t.cwd (Ne.symm (hpart part hmem)) other key
  · rw [he] at hput
    cases hput

end

/-- What is stored is found with its bytes and all that was said of it, and other keys do not notice
unless their records name a file that is written: the library, the copy or the record of the key,
or only the first two if storing fails, when not even the key itself notices.

When storing succeeds is said for trees as they are here, which know no permissions and have no
limit to their space: on a disk, the files may also be refused for one of these reasons.  What holds of
a success and of a failure does not depend on that. -/
theorem lookup_put (s : Store) (t : FileTree) (now : Timestamp) (rendered cc : String)
    (library command : String) (ms length : Nat) :
    let key := fingerprint rendered cc
    let result := s.put t now key library command ms length
    ((∃ entry, result.1 = .ok entry) ↔
      (∃ bytes, t.readFile library = .ok bytes) ∧ s.HasRoom t key) ∧
    (∀ entry, result.1 = .ok entry →
      (Path.resolve t.cwd library ≠ s.place t.cwd .staged key →
        Metadata.read? entry.metadata.write = some entry.metadata →
        ∃ bytes, t.readFile library = .ok bytes ∧
          entry = ⟨key, s.recordOf now key command bytes.length ms length⟩ ∧
          s.lookup result.2 key = .ok (some entry) ∧
          result.2.readFile entry.metadata.binary = .ok bytes) ∧
      ∀ rendered' cc', fingerprint rendered' cc' ≠ key →
        (∀ part, ¬ s.RecordNames t (fingerprint rendered' cc') (s.place t.cwd part key)) →
        s.SameFound t result.2 (fingerprint rendered' cc')) ∧
    ∀ e, result.1 = .error e → ∀ other,
      (∀ part, part ≠ .record → ¬ s.RecordNames t other (s.place t.cwd part key)) →
      s.SameFound t result.2 other := by
  intro key result
  have hkey : IsKey key := isKey_fingerprint rendered cc
  refine ⟨exists_put_iff hkey, ?_, ?_⟩
  · intro entry hput
    refine ⟨fun hapart hyaml => ?_, fun rendered' cc' hne hnames => ?_⟩
    · obtain ⟨bytes, hread, hentry, hlookup, hlibrary⟩ := lookup_of_put hkey hput hyaml
      rw [copyOf_eq hapart] at hentry hlibrary
      exact ⟨bytes, hread, hentry, hlookup, hlibrary⟩
    · refine sameFound_put hkey ?_ hnames
      rw [metadataPath_eq, resolve_path s t.cwd .record (isKey_fingerprint rendered' cc').no_slash]
      intro heq
      exact hne (place_injective heq).2
  · intro e hput other hnames
    exact sameFound_of_put_eq_error hkey hput hnames

/-! ## Being noticed

A record that names the record of another key is a record of nothing until a library is stored under
that key. -/

section

variable {s : Store} {t : FileTree} {key other library command : String} {now : Timestamp}
  {ms length : Nat} {bytes : List UInt8} {m : Metadata}

theorem lookup_eq_none (hread : t.readFile (s.metadataPath key) = .ok bytes)
    (hm : Metadata.read? bytes = some m) (hmissing : t.hasPath m.binary = false) :
    s.lookup t key = .ok none := by
  obtain ⟨hpasses, hnode⟩ := FileTree.readFile_eq_ok_iff.1 hread
  rw [lookup_of_hasPath (FileTree.hasPath_iff.2 ⟨hpasses, _, hnode⟩),
    readFrom_eq_ok_iff.2 ⟨bytes, hread, hm⟩, Except.map, hmissing]
  rfl

theorem lookup_put_of_names_record (hkey : IsKey key) (hother : IsKey other) (hne : other ≠ key)
    {entry : Entry} (hput : (s.put t now key library command ms length).1 = .ok entry)
    (hread : t.readFile (s.metadataPath other) = .ok bytes) (hm : Metadata.read? bytes = some m)
    (hbinary : m.binary = s.metadataPath key) :
    s.lookup (s.put t now key library command ms length).2 other = .ok (some ⟨other, m⟩) := by
  obtain ⟨stored, -, -, hreached, hpasses⟩ := reached_of_put hkey hput
  rw [lookup_eq_some_iff]
  refine ⟨rfl, ?_, bytes, ?_, hm⟩
  · rw [hbinary, FileTree.hasPath_iff, hreached.passes_iff, hreached.cwd, metadataPath_eq,
      resolve_path s t.cwd .record hkey.no_slash, hreached.node, Progress.node?, if_pos rfl]
    exact ⟨hpasses .record, _, rfl⟩
  · rw [FileTree.readFile_eq_ok_iff, metadataPath_eq,
      resolve_path s t.cwd .record hother.no_slash] at hread
    rw [FileTree.readFile_eq_ok_iff, metadataPath_eq, hreached.passes_iff, hreached.cwd,
      resolve_path s t.cwd .record hother.no_slash, hreached.node?_other hne]
    exact hread

end

namespace Neighbours

def store : Store := ⟨"/s"⟩

def now : Timestamp := ⟨0, 0⟩

/-- A library, and a store with these files. -/
def files (binaries metadata : List (String × Branch)) : FileTree :=
  ⟨[], [("lib", .file [1, 2, 3]),
    ("s", .directory [("binaries", .directory binaries), ("metadata", .directory metadata)])]⟩

/-! Two keys. -/

def key : String := "32048e0962dcd6786aae6cca448a24aa94bddd93"

def other : String := "974b2356441bb3826db5f3decb0d55e11b82af35"

theorem fingerprint_key : fingerprint "int n = 1;" "cc" = key := by
  decide +kernel

theorem fingerprint_other : fingerprint "int n = 2;" "cc" = other := by
  decide +kernel

theorem isKey_key : IsKey key :=
  fingerprint_key ▸ isKey_fingerprint "int n = 1;" "cc"

theorem isKey_other : IsKey other :=
  fingerprint_other ▸ isKey_fingerprint "int n = 2;" "cc"

theorem other_ne_key : other ≠ key := by
  decide

theorem spelled_key (part : Part) : Path.Spelled [] (store.path part key) := by
  cases part
  all_goals exact ⟨by decide +kernel, by decide +kernel, by decide +kernel, by decide +kernel⟩

theorem spelled_other : Path.Spelled [] (store.path .record other) :=
  ⟨by decide +kernel, by decide +kernel, by decide +kernel, by decide +kernel⟩

/-! What is at their places. -/

section

variable (binaries metadata : List (String × Branch))

theorem isOpen_files : store.IsOpen (files binaries metadata) := by
  intro part
  cases part <;> rfl

theorem node?_of_lookup {entries : List (String × Branch)} {name : String} :
    (Branch.directory entries).node? [name] = (entries.lookup name).map Branch.node := by
  rw [Branch.node?_cons, Branch.child?]
  cases entries.lookup name with
  | none => rfl
  | some b => rw [Option.bind_some, Branch.node?_nil, Option.map_some]

theorem node?_record (k : String) :
    (files binaries metadata).node? (store.place [] .record k) =
      (metadata.lookup (Part.record.name k)).map Branch.node :=
  node?_of_lookup

theorem node?_binary {part : Part} (hpart : part ≠ .record) (k : String) :
    (files binaries metadata).node? (store.place [] part k) =
      (binaries.lookup (part.name k)).map Branch.node := by
  cases part with
  | library => exact node?_of_lookup
  | staged => exact node?_of_lookup
  | record => exact absurd rfl hpart

theorem passes_key (part : Part) : (files binaries metadata).Passes (store.path part key) := by
  rw [path, FileTree.passes_join_iff (part.isComponent_name isKey_key.no_slash)
    (Part.dir_ne_empty store part) (Part.getLast?_dir store part)]
  exact ⟨spelled_key part, isOpen_files binaries metadata part⟩

end

/-- A store in which the other key has a record with these bytes. -/
def recorded (binaries : List (String × Branch)) (bytes : List UInt8) : FileTree :=
  files binaries [(Part.record.name other, .file bytes)]

theorem readFile_lib (binaries : List (String × Branch)) (bytes : List UInt8) :
    (recorded binaries bytes).readFile "/lib" = .ok [1, 2, 3] := by
  rfl

theorem readFile_recorded (binaries : List (String × Branch)) (bytes : List UInt8) :
    (recorded binaries bytes).readFile (store.metadataPath other) = .ok bytes := by
  rw [metadataPath_eq, recorded,
    (isOpen_files binaries _).readFile_eq_ok_iff .record isKey_other.no_slash]
  refine ⟨spelled_other, ?_⟩
  change (files _ _).node? (store.place [] .record other) = _
  rw [node?_record, List.lookup_cons_self]
  rfl

theorem node?_recorded_key (binaries : List (String × Branch)) (bytes : List UInt8) :
    (recorded binaries bytes).node? (store.place [] .record key) = none := by
  have hne : (Part.record.name key == Part.record.name other) = false := by
    rw [beq_eq_false_iff_ne]
    intro heq
    exact other_ne_key (Part.name_injective .rfl heq).2.symm
  rw [recorded, node?_record, List.lookup_cons, hne]
  rfl

theorem hasRoom_recorded {binaries : List (String × Branch)}
    (hfiles : ∀ name, (binaries.lookup name).map Branch.node ≠ some .directory)
    (bytes : List UInt8) : store.HasRoom (recorded binaries bytes) key := by
  intro part
  refine ⟨passes_key binaries _ part, ?_⟩
  by_cases hpart : part = .record
  · rw [hpart]
    exact fun h => nomatch (node?_recorded_key binaries bytes).symm.trans h
  · exact fun h => hfiles _ ((node?_binary binaries _ hpart key).symm.trans h)

/-! A record of the other key that names the record of the first one. -/

def misled : Metadata :=
  { store.recordOf now other "cc" 3 0 0 with binary := store.metadataPath key }

theorem read?_misled : Metadata.read? misled.write = some misled := by
  rw [Metadata.read?_write, Metadata.toList_text]
  decide +kernel

theorem lookup_misled : store.lookup (recorded [] misled.write) other = .ok none := by
  refine lookup_eq_none (readFile_recorded [] misled.write) read?_misled ?_
  rw [Bool.eq_false_iff, Ne, FileTree.hasPath_iff]
  rintro ⟨-, n, hn⟩
  change (recorded [] misled.write).node? (Path.resolve [] (store.metadataPath key)) = _ at hn
  rw [metadataPath_eq, resolve_path store [] .record isKey_key.no_slash, node?_recorded_key] at hn
  cases hn

theorem not_recordNames_misled (binaries : List (String × Branch)) {part : Part}
    (hpart : part ≠ .record) :
    ¬ store.RecordNames (recorded binaries misled.write) other (store.place [] part key) := by
  rintro ⟨m, hm, hplace⟩
  have hread := readFrom_eq_ok_iff.2 ⟨_, readFile_recorded binaries misled.write, read?_misled⟩
  rw [hread] at hm
  cases hm
  change Path.resolve [] (store.metadataPath key) = _ at hplace
  rw [metadataPath_eq] at hplace
  exact store.resolve_path_ne [] (Ne.symm hpart) key key hplace

/-! A library that is the copy of another one which was left over. -/

def leftOver : FileTree :=
  recorded [(Part.staged.name key, .file [1, 2, 3])] []

theorem readFile_leftOver : leftOver.readFile (store.stagingPath key) = .ok [1, 2, 3] := by
  rw [stagingPath_eq store isKey_key, leftOver, recorded,
    (isOpen_files _ _).readFile_eq_ok_iff .staged isKey_key.no_slash]
  refine ⟨spelled_key .staged, ?_⟩
  change (files _ _).node? (store.place [] .staged key) = _
  rw [node?_binary _ _ (by decide), List.lookup_cons_self]
  rfl

theorem hasRoom_leftOver : store.HasRoom leftOver key := by
  refine hasRoom_recorded (fun name => ?_) []
  rw [List.lookup_cons]
  split
  · simp [Branch.node]
  · simp

theorem copyOf_leftOver (bytes : List UInt8) :
    store.copyOf leftOver key (store.stagingPath key) bytes = [] := by
  have hplace : store.place [] .staged key = Path.resolve [] (store.stagingPath key) := by
    rw [stagingPath_eq store isKey_key, resolve_path store [] .staged isKey_key.no_slash]
  exact if_pos hplace

theorem read?_record {size : Nat} (hsize : size = 0 ∨ size = 3) :
    Metadata.read? (store.recordOf now key "cc" size 0 0).write =
      some (store.recordOf now key "cc" size 0 0) := by
  rw [Metadata.read?_write, Metadata.toList_text]
  rcases hsize with rfl | rfl <;> decide +kernel

theorem lookup_leftOver :
    ∃ entry, (store.put leftOver now key (store.stagingPath key) "cc" 0 0).1 = .ok entry ∧
      store.lookup (store.put leftOver now key (store.stagingPath key) "cc" 0 0).2 key =
        .ok (some entry) ∧
      (store.put leftOver now key (store.stagingPath key) "cc" 0 0).2.readFile
        entry.metadata.binary = .ok [] := by
  obtain ⟨entry, hput⟩ := exists_put isKey_key readFile_leftOver hasRoom_leftOver
  obtain ⟨bytes, -, hentry, -⟩ := reached_of_put isKey_key hput
  rw [copyOf_leftOver] at hentry
  have hyaml : Metadata.read? entry.metadata.write = some entry.metadata := by
    rw [hentry]
    exact read?_record (.inl rfl)
  obtain ⟨bytes', -, -, hlookup, hlibrary⟩ := lookup_of_put isKey_key hput hyaml
  rw [copyOf_leftOver] at hlibrary
  exact ⟨entry, hput, hlookup, hlibrary⟩

/-- A lookup can change that does not go to the library or to the copy of it, and a library that is
the copy itself is lost. -/
theorem lookup_put_noticed :
    fingerprint "int n = 1;" "cc" = key ∧ fingerprint "int n = 2;" "cc" = other ∧ other ≠ key ∧
    ((∃ entry, (store.put (recorded [] misled.write) now key "/lib" "cc" 0 0).1 = .ok entry) ∧
      (∀ part, part ≠ .record →
        ¬ store.RecordNames (recorded [] misled.write) other (store.place [] part key)) ∧
      store.lookup (recorded [] misled.write) other = .ok none ∧
      store.lookup (store.put (recorded [] misled.write) now key "/lib" "cc" 0 0).2 other =
        .ok (some ⟨other, misled⟩)) ∧
    leftOver.readFile (store.stagingPath key) = .ok [1, 2, 3] ∧
    ∃ entry, (store.put leftOver now key (store.stagingPath key) "cc" 0 0).1 = .ok entry ∧
      store.lookup (store.put leftOver now key (store.stagingPath key) "cc" 0 0).2 key =
        .ok (some entry) ∧
      (store.put leftOver now key (store.stagingPath key) "cc" 0 0).2.readFile
        entry.metadata.binary = .ok [] := by
  refine ⟨fingerprint_key, fingerprint_other, other_ne_key, ?_, readFile_leftOver, lookup_leftOver⟩
  obtain ⟨entry, hput⟩ : ∃ entry,
      (store.put (recorded [] misled.write) now key "/lib" "cc" 0 0).1 = .ok entry :=
    exists_put isKey_key (readFile_lib [] _) (hasRoom_recorded (by simp) misled.write)
  refine ⟨⟨entry, hput⟩, fun part hpart => not_recordNames_misled [] hpart, lookup_misled, ?_⟩
  exact lookup_put_of_names_record isKey_key isKey_other other_ne_key hput
    (readFile_recorded [] misled.write) read?_misled rfl

/-! The other key has a record that cannot be read, or one that names the record of the first key
while the library of that one cannot be put in its place. -/

theorem readFrom_unreadable :
    Metadata.readFrom (recorded [] [255]) (store.metadataPath other) = .error .unreadableRecord := by
  have hread := readFile_recorded [] [255]
  rw [FileTree.readFile_eq_ok_iff, ← FileTree.find_eq_ok_iff] at hread
  have hbytes : Metadata.read? [255] = none := by decide +kernel
  unfold Metadata.readFrom
  rw [hread]
  dsimp only
  rw [hbytes]

theorem not_recordNames_unreadable (p : Place) :
    ¬ store.RecordNames (recorded [] [255]) other p := by
  rintro ⟨m, hm, -⟩
  rw [readFrom_unreadable] at hm
  cases hm

theorem lib_ne_staged : Path.resolve [] "/lib" ≠ store.place [] .staged key := by
  have hplace : store.place [] .staged key = ["s", "binaries", Part.staged.name key] := rfl
  have hlib : Path.resolve [] "/lib" = ["lib"] := rfl
  rw [hplace, hlib]
  simp

theorem entry_lib {entry : Entry} {bytes : List UInt8}
    (hput : (store.put (recorded [] bytes) now key "/lib" "cc" 0 0).1 = .ok entry) :
    entry = ⟨key, store.recordOf now key "cc" 3 0 0⟩ := by
  obtain ⟨library, hread, hentry, -⟩ := reached_of_put isKey_key hput
  rw [copyOf_eq lib_ne_staged] at hentry
  rw [readFile_lib] at hread
  cases hread
  exact hentry

def blocked : FileTree :=
  recorded [(Part.library.name key, .directory [])] misled.write

theorem put_blocked : ∃ e, (store.put blocked now key "/lib" "cc" 0 0).1 = .error e := by
  have hnot : ¬ ∃ entry, (store.put blocked now key "/lib" "cc" 0 0).1 = .ok entry := by
    rw [exists_put_iff isKey_key]
    rintro ⟨-, hroom⟩
    refine (hroom .library).2 ?_
    change (files _ _).node? (store.place [] .library key) = _
    rw [node?_binary _ _ (by decide), List.lookup_cons_self]
    rfl
  cases hput : (store.put blocked now key "/lib" "cc" 0 0).1 with
  | error e => exact ⟨e, rfl⟩
  | ok entry => exact absurd ⟨entry, hput⟩ hnot

theorem lookup_put_beside_other :
    (∃ entry, (store.put (recorded [] [255]) now key "/lib" "cc" 0 0).1 = .ok entry ∧
      store.lookup (store.put (recorded [] [255]) now key "/lib" "cc" 0 0).2 key =
        .ok (some entry) ∧
      (store.put (recorded [] [255]) now key "/lib" "cc" 0 0).2.readFile entry.metadata.binary =
        .ok [1, 2, 3] ∧
      store.SameFound (recorded [] [255]) (store.put (recorded [] [255]) now key "/lib" "cc" 0 0).2
        other) ∧
    (∃ e, (store.put blocked now key "/lib" "cc" 0 0).1 = .error e) ∧
      store.SameFound blocked (store.put blocked now key "/lib" "cc" 0 0).2 other := by
  refine ⟨?_, put_blocked, ?_⟩
  · have h := lookup_put store (recorded [] [255]) now "int n = 1;" "cc" "/lib" "cc" 0 0
    rw [fingerprint_key] at h
    obtain ⟨hiff, hstored, -⟩ := h
    obtain ⟨entry, hput⟩ :=
      hiff.2 ⟨⟨_, readFile_lib [] _⟩, hasRoom_recorded (by simp) [255]⟩
    obtain ⟨hfound, hothers⟩ := hstored entry hput
    have hyaml : Metadata.read? entry.metadata.write = some entry.metadata := by
      rw [entry_lib hput]
      exact read?_record (.inr rfl)
    obtain ⟨bytes, hread, -, hlookup, hlibrary⟩ := hfound lib_ne_staged hyaml
    rw [readFile_lib] at hread
    cases hread
    have hsame := hothers "int n = 2;" "cc"
    rw [fingerprint_other] at hsame
    exact ⟨entry, hput, hlookup, hlibrary,
      hsame other_ne_key fun part => not_recordNames_unreadable _⟩
  · have h := lookup_put store blocked now "int n = 1;" "cc" "/lib" "cc" 0 0
    rw [fingerprint_key] at h
    obtain ⟨-, -, hfailed⟩ := h
    obtain ⟨e, hput⟩ := put_blocked
    exact hfailed e hput other fun part hpart => not_recordNames_misled _ hpart

end Neighbours

end Store
end Loopsmith
