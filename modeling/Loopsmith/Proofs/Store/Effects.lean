import Loopsmith.Proofs.Store.Keys

/-!
# What becomes of a store

Two kinds of things happen to the directories of a store.  Storing a library goes through three
changes of its own, any of which may fail, and leaves the files of other keys alone: the copy is
written, moved to its place, and recorded (`Store.put_course`).  Everything else that happens on
the disk, as long as it is meant for other places, spares the store (`Store.Spared`): its two
directories stay, and the files in them are as they were.

The store that is spared is a place in the tree, however its root is spelled and whatever directory
that spelling starts from.  A working directory that was made while the store was there does not
contain it, so writing into it and removing it spares the store (`Store.Spared.of_write`,
`Store.Spared.of_drop`).
-/

namespace Loopsmith

/-! ## Records -/

namespace Metadata

theorem read?_write (m : Metadata) :
    read? m.write = (Yaml.parse? m.text.toList).bind ofEntries? := by
  rw [read?, write, Text.bytesOf, Text.decode?_encode]
  generalize m.text.toList = cs
  simp only [Option.bind_eq_bind, Option.bind_some]

/-- The text of a record, line by line. -/
theorem toList_text (m : Metadata) :
    m.text.toList =
      (line "key" (Yaml.Quoted.write m.key)).toList ++
      ((line "created_at" (Yaml.Quoted.write m.createdAt.text)).toList ++
      ((line "crate_version" (Yaml.Quoted.write m.version)).toList ++
      ((line "compiler_command" (Yaml.Quoted.write m.command)).toList ++
      ((line "binary_path" (Yaml.Quoted.write m.binary)).toList ++
      ((line "binary_size" (toString m.binarySize)).toList ++
      ((line "build_time_ms" (toString m.buildMilliseconds)).toList ++
      (line "source_len" (toString m.sourceLength)).toList)))))) := by
  simp only [text, String.join_cons, String.join_nil, String.toList_append, String.append_empty]

end Metadata

namespace Store

/-! ## Sparing a store -/

/-- Both directories of the store can be reached. -/
def IsOpen (s : Store) (t : FileTree) : Prop :=
  ∀ part : Part, t.isDirectory (part.dir s) = true

/-- The store is open, and there is no file in it. -/
structure Fresh (s : Store) (t : FileTree) : Prop where
  isOpen : s.IsOpen t
  empty : ∀ (part : Part) (name : String) (bytes : List UInt8),
    t.node? (Path.resolve t.cwd (part.dir s) ++ [name]) ≠ some (.file bytes)

theorem isOpen_of_directories {s : Store} {t t' : FileTree} (hcwd : t'.cwd = t.cwd)
    (hdirs : ∀ part : Part, ∀ q ∈ Path.way t.cwd (part.dir s),
      t.node? q = some .directory → t'.node? q = some .directory) (h : s.IsOpen t) :
    s.IsOpen t' := by
  intro part
  obtain ⟨hspelled, hway⟩ := FileTree.isDirectory_iff_way.1 (h part)
  rw [FileTree.isDirectory_iff_way, hcwd]
  exact ⟨hspelled, fun q hq => hdirs part q hq (hway q hq)⟩

/-- Both directories of the store at `home` are there. -/
def Stands (home : Place) (t : FileTree) : Prop :=
  ∀ part : Part, t.node? (part.shelf home) = some .directory

theorem IsOpen.stands {s : Store} {t : FileTree} (h : s.IsOpen t) :
    Stands (Path.resolve t.cwd s.root) t := by
  intro part
  rw [← Part.resolve_dir]
  exact (FileTree.isDirectory_iff.1 (h part)).2

/-- A spelling that never goes up can be followed as long as the store is there. -/
theorem Stands.passes {home : Place} {t : FileTree} (h : Stands home t) {s : Store}
    (hhome : Path.resolve t.cwd s.root = home) (part : Part) {key : String}
    (hkey : '/' ∉ key.toList) (hup : ".." ∉ Path.route t.cwd (part.dir s))
    (hspelled : Path.Spelled t.cwd (s.path part key)) : t.Passes (s.path part key) := by
  have hdir : Path.resolve t.cwd (part.dir s) = part.shelf home := by
    rw [Part.resolve_dir, hhome]
  have hx := part.isComponent_name hkey
  refine (FileTree.passes_join_iff hx (Part.dir_ne_empty s part) (Part.getLast?_dir s part)).2
    ⟨hspelled, FileTree.isDirectory_iff.2 ⟨⟨?_, fun q hq => ?_⟩, by rw [hdir, h part]⟩⟩
  · exact Path.spelled_of_join hx (Part.dir_ne_empty s part) (Part.getLast?_dir s part) hspelled
  · have hprefix : q <+: part.shelf home := hdir ▸ Path.isPrefix_of_mem_passed hup hq
    by_cases heq : q = part.shelf home
    · rw [heq, h part]
    · exact FileTree.node?_of_isPrefix (h part) hprefix heq

/-- Neither directory of the store is at this place or below it. -/
def Apart (home p : Place) : Prop :=
  ∀ part : Part, ¬ p <+: part.shelf home

/-- Where nothing is, there is no store either. -/
theorem Stands.apart {home p : Place} {t : FileTree} (h : Stands home t) (hp : t.node? p = none) :
    Apart home p := by
  intro part hprefix
  by_cases heq : p = part.shelf home
  · rw [heq, h part] at hp
    cases hp
  · rw [FileTree.node?_of_isPrefix (h part) hprefix heq] at hp
    cases hp

theorem Apart.ne_nil {home p : Place} (h : Apart home p) : p ≠ [] := by
  rintro rfl
  exact h .library List.nil_prefix

/-- The files of the store at `home` are the same, and its directories are there if they were. -/
structure Spared (home : Place) (t t' : FileTree) : Prop where
  cwd : t'.cwd = t.cwd
  entries : ∀ (part : Part) (name : String) (bytes : List UInt8),
    t'.node? (part.shelf home ++ [name]) = some (.file bytes) ↔
      t.node? (part.shelf home ++ [name]) = some (.file bytes)
  stands : Stands home t → Stands home t'

namespace Spared

variable {home : Place} {t t' t'' : FileTree}

theorem refl (home : Place) (t : FileTree) : Spared home t t :=
  ⟨rfl, fun _ _ _ => .rfl, id⟩

theorem trans (h : Spared home t t') (h' : Spared home t' t'') : Spared home t t'' :=
  ⟨h'.cwd.trans h.cwd,
    fun part name bytes => (h'.entries part name bytes).trans (h.entries part name bytes),
    fun hstands => h'.stands (h.stands hstands)⟩

/-- Making directories spares a store. -/
theorem of_widened (h : t.Widened t') : Spared home t t' := by
  refine ⟨h.cwd, ?_, ?_⟩
  · intro part name bytes
    rcases h.node (part.shelf home ++ [name]) with heq | ⟨hnone, hdir⟩
    · rw [heq]
    · rw [hnone, hdir]
      simp
  · intro hstands part
    rcases h.node (part.shelf home) with heq | ⟨-, hdir⟩
    · rw [heq, hstands part]
    · exact hdir

/-- Writing a file in a directory that is not one of the store's spares it. -/
theorem of_write {p : Place} {name : String} (hapart : Apart home p)
    (htakes : t.Takes (p ++ [name])) (bytes : List UInt8) :
    Spared home t (t.set (p ++ [name]) (.file bytes)) := by
  have hnode := FileTree.node?_set htakes (.file bytes)
  refine ⟨t.cwd_set _ _, ?_, ?_⟩
  · intro part n b
    have hne : part.shelf home ++ [n] ≠ p ++ [name] := by
      intro heq
      have hp := (List.append_inj' heq rfl).1
      exact hapart part ⟨[], by rw [List.append_nil, hp]⟩
    rw [hnode, if_neg hne]
  · intro hstands part
    have hne : part.shelf home ≠ p ++ [name] := by
      intro heq
      exact htakes.2 (heq ▸ hstands part)
    rw [hnode, if_neg hne, hstands part]

/-- Removing a directory that the store is not in spares it. -/
theorem of_drop {p : Place} (hapart : Apart home p)
    (hentry : ∀ (part : Part) (name : String) (bytes : List UInt8),
      p = part.shelf home ++ [name] → t.node? p ≠ some (.file bytes)) :
    Spared home t (t.drop p) := by
  have hnode := t.node?_drop hapart.ne_nil
  refine ⟨t.cwd_drop p, ?_, ?_⟩
  · intro part name bytes
    rw [hnode]
    by_cases hpre : p <+: part.shelf home ++ [name]
    · rcases List.prefix_concat_iff.1 hpre with heq | hpre
      · have hfile := hentry part name bytes heq
        rw [heq] at hfile
        simp [heq, hfile]
      · exact absurd hpre (hapart part)
    · rw [if_neg hpre]
  · intro hstands part
    rw [hnode, if_neg (hapart part), hstands part]

end Spared

/-! ## Storing a library -/

/-- The record of a library of `size` bytes. -/
def recordOf (s : Store) (now : Timestamp) (key command : String)
    (size buildMilliseconds sourceLength : Nat) : Metadata :=
  { key, createdAt := now, version, command, binary := s.binaryPath key, binarySize := size,
    buildMilliseconds, sourceLength }

/-- How far storing a library got. -/
inductive Progress where
  | copied
  | published
  | recorded
  deriving DecidableEq, Repr

/-- What is at each place when storing got so far. -/
def Progress.node? (s : Store) (t : FileTree) (key : String) (library record : List UInt8) :
    Progress → Place → Option Node
  | copied, q => if q = s.place t.cwd .staged key then some (.file library) else t.node? q
  | published, q =>
      if q = s.place t.cwd .library key then some (.file library)
      else if q = s.place t.cwd .staged key then none else t.node? q
  | recorded, q =>
      if q = s.place t.cwd .record key then some (.file record)
      else if q = s.place t.cwd .library key then some (.file library)
      else if q = s.place t.cwd .staged key then none else t.node? q

/-- The tree when storing a library got so far; no directory is lost. -/
structure Reached (s : Store) (t : FileTree) (key : String) (library record : List UInt8)
    (progress : Progress) (t' : FileTree) : Prop where
  cwd : t'.cwd = t.cwd
  node : ∀ q, t'.node? q = progress.node? s t key library record q
  directories : ∀ q, t.node? q = some .directory → t'.node? q = some .directory

/-- The parts of a key that have been written to when storing got so far. -/
def Progress.touched : Progress → List Part
  | copied => [.staged]
  | published => [.staged, .library]
  | recorded => [.staged, .library, .record]

namespace Reached

variable {s : Store} {t t' : FileTree} {key : String} {library record : List UInt8}
  {progress : Progress}

theorem node?_elsewhere (h : s.Reached t key library record progress t') {q : Place}
    (hq : ∀ part ∈ progress.touched, q ≠ s.place t.cwd part key) : t'.node? q = t.node? q := by
  rw [h.node]
  cases progress with
  | copied => rw [Progress.node?, if_neg (hq .staged (by decide))]
  | published =>
      rw [Progress.node?, if_neg (hq .library (by decide)), if_neg (hq .staged (by decide))]
  | recorded =>
      rw [Progress.node?, if_neg (hq .record (by decide)), if_neg (hq .library (by decide)),
        if_neg (hq .staged (by decide))]

/-- No directory is lost, and none is made. -/
theorem directory_iff (h : s.Reached t key library record progress t') (q : Place) :
    t'.node? q = some .directory ↔ t.node? q = some .directory := by
  refine ⟨fun hq => ?_, h.directories q⟩
  rw [h.node] at hq
  cases progress with
  | copied =>
      rw [Progress.node?] at hq
      split at hq
      · cases hq
      · exact hq
  | published =>
      rw [Progress.node?] at hq
      split at hq
      · cases hq
      · split at hq
        · cases hq
        · exact hq
  | recorded =>
      rw [Progress.node?] at hq
      split at hq
      · cases hq
      · split at hq
        · cases hq
        · split at hq
          · cases hq
          · exact hq

theorem passes_iff (h : s.Reached t key library record progress t') (path : String) :
    t'.Passes path ↔ t.Passes path := by
  simp only [FileTree.Passes, h.cwd, h.directory_iff]

end Reached

/-- What a copy of a library has in it: nothing, if the library is the file that it is copied to. -/
def copyOf (s : Store) (t : FileTree) (key library : String) (bytes : List UInt8) : List UInt8 :=
  if s.place t.cwd .staged key = Path.resolve t.cwd library then [] else bytes

theorem copyOf_eq {s : Store} {t : FileTree} {key library : String}
    (hapart : Path.resolve t.cwd library ≠ s.place t.cwd .staged key) (bytes : List UInt8) :
    s.copyOf t key library bytes = bytes :=
  if_neg (Ne.symm hapart)

section

variable {s : Store} {t t' t'' : FileTree} {key library : String} {bytes record : List UInt8}

theorem reached_copied (hkey : IsKey key) (hread : t.readFile library = .ok bytes)
    (h : t.copy library (s.stagingPath key) = .ok t') (record : List UInt8) :
    s.Reached t key (s.copyOf t key library bytes) record .copied t' ∧
      t.Passes (s.path .staged key) := by
  obtain ⟨bytes', hread', hpasses, htakes, ht'⟩ := FileTree.copy_eq_ok h
  rw [hread] at hread'
  cases hread'
  rw [stagingPath_eq s hkey] at hpasses htakes ht'
  rw [resolve_path s t.cwd .staged hkey.no_slash] at htakes ht'
  rw [← copyOf] at ht'
  subst ht'
  have hnode := FileTree.node?_set htakes (.file (s.copyOf t key library bytes))
  refine ⟨⟨t.cwd_set _ _, ?_, ?_⟩, hpasses⟩
  · intro q
    rw [hnode, Progress.node?]
  · intro q hq
    have hne : q ≠ s.place t.cwd .staged key := by
      rintro rfl
      exact htakes.2 hq
    rw [hnode, if_neg hne, hq]

theorem reached_published (hkey : IsKey key) (hcopied : s.Reached t key bytes record .copied t')
    (h : t'.rename (s.stagingPath key) (s.binaryPath key) = .ok t'') :
    s.Reached t key bytes record .published t'' ∧ t.Passes (s.path .library key) := by
  have hstaged : Path.resolve t'.cwd (s.stagingPath key) = s.place t.cwd .staged key := by
    rw [stagingPath_eq s hkey, resolve_path s _ .staged hkey.no_slash, hcopied.cwd]
  have hlibrary : Path.resolve t'.cwd (s.binaryPath key) = s.place t.cwd .library key := by
    rw [binaryPath_eq, resolve_path s _ .library hkey.no_slash, hcopied.cwd]
  have hfile : t'.node? (s.place t.cwd .staged key) = some (.file bytes) := by
    rw [hcopied.node, Progress.node?, if_pos rfl]
  rw [← hstaged] at hfile
  obtain ⟨hpasses, htakes, rfl⟩ := FileTree.rename_eq_ok hfile h
  rw [hstaged] at hfile
  rw [hlibrary] at htakes
  have hnode := FileTree.node?_move hfile htakes
  rw [hstaged, hlibrary]
  refine ⟨⟨by rw [FileTree.cwd_put, FileTree.cwd_drop, hcopied.cwd], ?_, ?_⟩, ?_⟩
  · intro q
    rw [hnode, hcopied.node, Progress.node?, Progress.node?]
    by_cases hq : q = s.place t.cwd .staged key
    · simp only [if_pos hq]
    · simp only [if_neg hq]
  · intro q hq
    have hdir := hcopied.directories q hq
    have hne : q ≠ s.place t.cwd .library key := by
      rintro rfl
      exact htakes.2 hdir
    have hne' : q ≠ s.place t.cwd .staged key := by
      rintro rfl
      rw [hfile] at hdir
      cases hdir
    rw [hnode, if_neg hne, if_neg hne', hdir]
  · rw [binaryPath_eq] at hpasses
    exact (hcopied.passes_iff _).1 hpasses

theorem reached_recorded (hkey : IsKey key) (hpublished : s.Reached t key bytes record .published t')
    (h : t'.writeFile (s.metadataPath key) record = .ok t'') :
    s.Reached t key bytes record .recorded t'' ∧ t.Passes (s.path .record key) := by
  have hrecord : Path.resolve t'.cwd (s.metadataPath key) = s.place t.cwd .record key := by
    rw [metadataPath_eq, resolve_path s _ .record hkey.no_slash, hpublished.cwd]
  obtain ⟨hpasses, htakes, rfl⟩ := FileTree.writeFile_eq_ok h
  rw [hrecord] at htakes ⊢
  have hnode := FileTree.node?_set htakes (.file record)
  refine ⟨⟨by rw [FileTree.cwd_set, hpublished.cwd], ?_, ?_⟩, ?_⟩
  · intro q
    rw [hnode, hpublished.node, Progress.node?, Progress.node?]
  · intro q hq
    have hdir := hpublished.directories q hq
    have hne : q ≠ s.place t.cwd .record key := by
      rintro rfl
      exact htakes.2 hdir
    rw [hnode, if_neg hne, hdir]
  · rw [metadataPath_eq] at hpasses
    exact (hpublished.passes_iff _).1 hpasses

end

namespace Reached

variable {s : Store} {t t' : FileTree} {key : String} {library record : List UInt8}
  {progress : Progress}

/-- The files of other keys stay as they are. -/
theorem node?_other (h : s.Reached t key library record progress t') {key' : String}
    (hne : key' ≠ key) (part : Part) :
    t'.node? (s.place t.cwd part key') = t.node? (s.place t.cwd part key') := by
  refine h.node?_elsewhere fun part' _ heq => ?_
  exact hne (place_injective heq).2

/-- A record that is there afterwards is the new one, or was there before. -/
theorem file_in_records (h : s.Reached t key library record progress t') {home : Place}
    (hhome : Path.resolve t.cwd s.root = home) {name : String} {bytes : List UInt8}
    (hfile : t'.node? (Part.record.shelf home ++ [name]) = some (.file bytes)) :
    (progress = .recorded ∧ name = Part.record.name key ∧ bytes = record) ∨
      t.node? (Part.record.shelf home ++ [name]) = some (.file bytes) := by
  have hshelf : Part.record.shelf home = Path.resolve t.cwd s.metadataDir := by
    rw [← hhome, ← Part.resolve_dir]
    rfl
  rw [hshelf] at hfile ⊢
  have hother : ∀ part : Part, part ≠ .record →
      Path.resolve t.cwd s.metadataDir ++ [name] ≠ s.place t.cwd part key := by
    intro part hpart heq
    exact s.metadataDir_ne t.cwd hpart (List.append_inj' heq rfl).1
  rw [h.node] at hfile
  cases progress with
  | copied =>
      rw [Progress.node?, if_neg (hother .staged (by decide))] at hfile
      exact .inr hfile
  | published =>
      rw [Progress.node?, if_neg (hother .library (by decide)),
        if_neg (hother .staged (by decide))] at hfile
      exact .inr hfile
  | recorded =>
      rw [Progress.node?, if_neg (hother .library (by decide)),
        if_neg (hother .staged (by decide))] at hfile
      by_cases hrecord : Path.resolve t.cwd s.metadataDir ++ [name] = s.place t.cwd .record key
      · rw [if_pos hrecord] at hfile
        cases hfile
        have hname := (List.append_inj' hrecord rfl).2
        exact .inl ⟨rfl, by simpa using hname, rfl⟩
      · rw [if_neg hrecord] at hfile
        exact .inr hfile

/-- The library is the new one as soon as it has been published. -/
theorem node?_library (h : s.Reached t key library record progress t') :
    t'.node? (s.place t.cwd .library key) = some (.file library) ∨
      progress = .copied ∧
        t'.node? (s.place t.cwd .library key) = t.node? (s.place t.cwd .library key) := by
  have hother : ∀ part : Part, part ≠ .library →
      s.place t.cwd .library key ≠ s.place t.cwd part key := by
    intro part hpart heq
    exact hpart (place_injective heq).1.symm
  rw [h.node]
  cases progress with
  | copied => exact .inr ⟨rfl, by rw [Progress.node?, if_neg (hother _ (by decide))]⟩
  | published => exact .inl (by rw [Progress.node?, if_pos rfl])
  | recorded =>
      exact .inl (by rw [Progress.node?, if_neg (hother _ (by decide)), if_pos rfl])

theorem stands (h : s.Reached t key library record progress t') {home : Place}
    (hstands : Stands home t) : Stands home t' :=
  fun part => h.directories _ (hstands part)

end Reached

/-- Only a file has a size. -/
theorem exists_of_librarySize {t : FileTree} {path : String} {size : Nat}
    (h : librarySize t path = .ok size) :
    ∃ bytes, t.node? (Path.resolve t.cwd path) = some (.file bytes) ∧ bytes.length = size := by
  unfold librarySize at h
  split at h
  · cases h
  · cases h
  · next bytes hfind =>
      cases h
      exact ⟨bytes, (FileTree.find_eq_ok_iff.1 hfind).2, rfl⟩

theorem Reached.librarySize_eq {s : Store} {t t' : FileTree} {key : String}
    {bytes record : List UInt8} (h : s.Reached t key bytes record .published t') (hkey : IsKey key)
    {size : Nat} (hsize : librarySize t' (s.binaryPath key) = .ok size) : bytes.length = size := by
  obtain ⟨bytes', hbytes', hlength⟩ := exists_of_librarySize hsize
  rw [binaryPath_eq, resolve_path s _ .library hkey.no_slash, h.cwd, h.node, Progress.node?,
    if_pos rfl] at hbytes'
  cases hbytes'
  exact hlength

theorem writeFile_of_writeTo {m : Metadata} {t t' : FileTree} {path : String}
    (h : m.writeTo t path = .ok t') : t.writeFile path m.write = .ok t' := by
  unfold Metadata.writeTo at h
  split at h
  · next hwrite =>
      cases h
      exact hwrite
  · cases h

/-- Storing a library changes nothing, or gets so far; it succeeds if it gets to its end, and only
then. -/
theorem put_course {s : Store} {t : FileTree} {key : String} (hkey : IsKey key) (library : String)
    (now : Timestamp) (command : String) (ms length : Nat) :
    (∃ e, s.put t now key library command ms length = (.error e, t)) ∨
      ∃ bytes progress t', t.readFile library = .ok bytes ∧
        s.Reached t key (s.copyOf t key library bytes) (s.recordOf now key command
          (s.copyOf t key library bytes).length ms length).write progress t' ∧
        ((progress ≠ .recorded ∧ ∃ e, s.put t now key library command ms length = (.error e, t')) ∨
          progress = .recorded ∧
            s.put t now key library command ms length =
              (.ok ⟨key, s.recordOf now key command (s.copyOf t key library bytes).length ms length⟩,
                t') ∧
            ∀ part, t.Passes (s.path part key)) := by
  cases hcopy : t.copy library (s.stagingPath key) with
  | error e =>
      have hput : s.put t now key library command ms length =
          (.error (.copyLibrary library e), t) := by
        simp only [put, publish, hcopy]
      exact .inl ⟨_, hput⟩
  | ok staged =>
      right
      obtain ⟨bytes, hread, -⟩ := FileTree.copy_eq_ok hcopy
      obtain ⟨hcopied, hstaging⟩ := reached_copied hkey hread hcopy (s.recordOf now key command
        (s.copyOf t key library bytes).length ms length).write
      cases hrename : staged.rename (s.stagingPath key) (s.binaryPath key) with
      | error e =>
          have hput : s.put t now key library command ms length =
              (.error (.publish (s.binaryPath key) e), staged) := by
            simp only [put, publish, hcopy, hrename]
          exact ⟨bytes, .copied, staged, hread, hcopied, .inl ⟨nofun, _, hput⟩⟩
      | ok moved =>
          obtain ⟨hpublished, hlibrary⟩ := reached_published hkey hcopied hrename
          cases hsize : librarySize moved (s.binaryPath key) with
          | error e =>
              have hput : s.put t now key library command ms length = (.error e, moved) := by
                simp only [put, publish, hcopy, hrename, hsize]
              exact ⟨bytes, .published, moved, hread, hpublished, .inl ⟨nofun, _, hput⟩⟩
          | ok size =>
              obtain rfl := hpublished.librarySize_eq hkey hsize
              cases hwrite : (s.recordOf now key command (s.copyOf t key library bytes).length ms
                  length).writeTo moved (s.metadataPath key) with
              | error e =>
                  have hput : s.put t now key library command ms length = (.error e, moved) := by
                    rw [recordOf] at hwrite
                    simp only [put, publish, hcopy, hrename, hsize, hwrite]
                  exact ⟨bytes, .published, moved, hread, hpublished, .inl ⟨nofun, _, hput⟩⟩
              | ok recorded =>
                  have hput : s.put t now key library command ms length =
                      (.ok ⟨key, s.recordOf now key command (s.copyOf t key library bytes).length ms
                        length⟩, recorded) := by
                    rw [recordOf] at hwrite ⊢
                    simp only [put, publish, hcopy, hrename, hsize, hwrite]
                  obtain ⟨hrecorded, hrecord⟩ :=
                    reached_recorded hkey hpublished (writeFile_of_writeTo hwrite)
                  refine ⟨bytes, .recorded, recorded, hread, hrecorded, .inr ⟨rfl, hput, ?_⟩⟩
                  intro part
                  cases part with
                  | library => exact hlibrary
                  | staged => exact hstaging
                  | record => exact hrecord

/-- As long as it is not the copy itself that is to be stored, all of it is. -/
theorem put_cases {s : Store} {t : FileTree} {key library : String} (hkey : IsKey key)
    (hapart : Path.resolve t.cwd library ≠ s.place t.cwd .staged key) (now : Timestamp)
    (command : String) (ms length : Nat) :
    (∃ e, s.put t now key library command ms length = (.error e, t)) ∨
      ∃ bytes progress t', t.readFile library = .ok bytes ∧
        s.Reached t key bytes (s.recordOf now key command bytes.length ms length).write progress t' ∧
        ((∃ e, s.put t now key library command ms length = (.error e, t')) ∨
          progress = .recorded ∧
            s.put t now key library command ms length =
              (.ok ⟨key, s.recordOf now key command bytes.length ms length⟩, t')) := by
  refine (put_course hkey library now command ms length).imp_right ?_
  rintro ⟨bytes, progress, t', hread, hreached, hput⟩
  rw [copyOf_eq hapart] at hreached hput
  refine ⟨bytes, progress, t', hread, hreached, hput.imp And.right ?_⟩
  rintro ⟨hend, hput, -⟩
  exact ⟨hend, hput⟩

/-! ## Looking a key up -/

section

variable {s : Store} {t : FileTree} {key : String}

theorem readFrom_eq_ok_iff {path : String} {m : Metadata} :
    Metadata.readFrom t path = .ok m ↔
      ∃ bytes, t.readFile path = .ok bytes ∧ Metadata.read? bytes = some m := by
  simp only [FileTree.readFile_eq_ok_iff, ← FileTree.find_eq_ok_iff]
  unfold Metadata.readFrom
  cases t.find path with
  | error e => simp
  | ok n =>
      cases n with
      | directory => simp
      | file bytes =>
          dsimp only
          cases hread : Metadata.read? bytes with
          | none => simp [hread]
          | some m' => simp [hread]

/-- What it takes to find an entry. -/
theorem lookup_eq_some_iff {found : Entry} :
    s.lookup t key = .ok (some found) ↔
      found.key = key ∧ t.hasPath found.metadata.binary = true ∧
        ∃ bytes, t.readFile (s.metadataPath key) = .ok bytes ∧
          Metadata.read? bytes = some found.metadata := by
  constructor
  · intro h
    rw [lookup] at h
    split at h
    · cases h
    · cases hread : Metadata.readFrom t (s.metadataPath key) with
      | error e =>
          rw [hread] at h
          cases h
      | ok m =>
          rw [hread] at h
          change Except.ok (if t.hasPath m.binary = true then some (Entry.mk key m) else none) = _ at h
          split at h
          · next hbinary =>
              cases h
              exact ⟨rfl, hbinary, readFrom_eq_ok_iff.1 hread⟩
          · cases h
  · rintro ⟨rfl, hbinary, hbytes⟩
    have hread := readFrom_eq_ok_iff.2 hbytes
    obtain ⟨bytes, hbytes, -⟩ := hbytes
    have hpath : t.hasPath (s.metadataPath found.key) = true := by
      obtain ⟨hpasses, hnode⟩ := FileTree.readFile_eq_ok_iff.1 hbytes
      exact FileTree.hasPath_iff.2 ⟨hpasses, _, hnode⟩
    rw [lookup, hpath, Bool.not_true, if_neg Bool.false_ne_true, hread]
    change Except.ok (if t.hasPath found.metadata.binary = true then _ else none) = _
    rw [if_pos hbinary]

/-- What it takes to read a file of an open store. -/
theorem IsOpen.readFile_eq_ok_iff (h : s.IsOpen t) (part : Part) (hkey : '/' ∉ key.toList)
    {bytes : List UInt8} :
    t.readFile (s.path part key) = .ok bytes ↔
      Path.Spelled t.cwd (s.path part key) ∧
        t.node? (s.place t.cwd part key) = some (.file bytes) := by
  rw [FileTree.readFile_eq_ok_iff, resolve_path s t.cwd part hkey, path,
    FileTree.passes_join_iff (part.isComponent_name hkey) (Part.dir_ne_empty s part)
      (Part.getLast?_dir s part), and_iff_left (h part)]

end

end Store
end Loopsmith
