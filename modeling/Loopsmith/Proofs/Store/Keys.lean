import Loopsmith.Proofs.Files.Operations
import Loopsmith.Proofs.Text.Bytes
import Loopsmith.Store.Basic
import Mathlib.Tactic.IntervalCases

/-!
# Keys and their places

A store keeps three files for a key, side by side with those of the other keys: the library, the
copy of it that is still being written, and the record.  A key has no slash in it, so the three
are entries of the two directories of the store, and different keys have different ones.

Keys are digests of what a library was built from.  The source may contain zero bytes, but the
command and the version do not, so the digested bytes can be taken apart from their end
(`Store.fingerprintBytes_injective`).  Whether different bytes have different digests is another
question.
-/

namespace Loopsmith

/-! ## Digests -/

namespace Digest

theorem mem_toDigits {n : Nat} {c : Char} (h : c ∈ Nat.toDigits 16 n) :
    ∃ d < 16, c = Nat.digitChar d := by
  induction n using Nat.strongRecOn with
  | ind n ih =>
      rw [Nat.toDigits_eq_if (by omega)] at h
      split at h
      · next hn => exact ⟨n, hn, List.mem_singleton.1 h⟩
      · next hn =>
          rcases List.mem_append.1 h with h | h
          · exact ih (n / 16) (by omega) h
          · exact ⟨n % 16, Nat.mod_lt n (by omega), List.mem_singleton.1 h⟩

theorem isAlphanum_of_mem_hex {w : UInt32} {c : Char} (h : c ∈ (hex w).toList) :
    c.isAlphanum = true := by
  rw [hex, String.toList_ofList, List.mem_append] at h
  rcases h with h | h
  · rw [List.eq_of_mem_replicate h]
    decide
  · obtain ⟨d, hd, rfl⟩ := mem_toDigits h
    interval_cases d <;> decide

theorem length_hex (w : UInt32) : 8 ≤ (hex w).length := by
  rw [hex, String.length_ofList, List.length_append, List.length_replicate]
  omega

theorem sha1_eq_join (bytes : List UInt8) :
    ∃ w : Words, sha1 bytes = String.join [hex w.a, hex w.b, hex w.c, hex w.d, hex w.e] :=
  ⟨words bytes, rfl⟩

theorem isAlphanum_of_mem_sha1 {bytes : List UInt8} {c : Char} (h : c ∈ (sha1 bytes).toList) :
    c.isAlphanum = true := by
  obtain ⟨w, hw⟩ := sha1_eq_join bytes
  simp only [hw, String.join_cons, String.join_nil, String.toList_append, List.mem_append,
    String.toList_empty, List.not_mem_nil, or_false] at h
  rcases h with h | h | h | h | h
  all_goals exact isAlphanum_of_mem_hex h

theorem length_sha1 (bytes : List UInt8) : 8 ≤ (sha1 bytes).length := by
  obtain ⟨w, hw⟩ := sha1_eq_join bytes
  have h := length_hex w.a
  simp only [hw, String.join_cons, String.length_append]
  omega

end Digest

namespace Store

/-! ## Places -/

/-- A text that can be the name of a stored library. -/
structure IsKey (key : String) : Prop where
  no_slash : '/' ∉ key.toList
  ne_empty : key ≠ ""
  ne_dot : key ≠ "."

theorem isKey_sha1 (bytes : List UInt8) : IsKey (Digest.sha1 bytes) := by
  have hlength := Digest.length_sha1 bytes
  have hdigits := @Digest.isAlphanum_of_mem_sha1 bytes
  generalize Digest.sha1 bytes = key at hlength hdigits
  refine ⟨?_, ?_, ?_⟩
  · intro h
    have := hdigits h
    contradiction
  · rintro rfl
    contradiction
  · rintro rfl
    contradiction

theorem isKey_fingerprint (rendered command : String) : IsKey (fingerprint rendered command) :=
  isKey_sha1 _

/-- What a store keeps for a key. -/
inductive Part where
  | library
  /-- The copy of a library that has not been moved to its place. -/
  | staged
  | record
  deriving DecidableEq, Repr

namespace Part

def extension : Part → String
  | library => "so"
  | staged => "tmp"
  | record => "yaml"

def dir (s : Store) : Part → String
  | library | staged => s.binariesDir
  | record => s.metadataDir

/-- The name that a part of a key has in its directory. -/
def name (part : Part) (key : String) : String :=
  key ++ "." ++ part.extension

theorem toList_name (part : Part) (key : String) :
    (part.name key).toList = key.toList ++ '.' :: part.extension.toList := by
  simp [name]

theorem getLast?_name (part : Part) (key : String) :
    (part.name key).toList.getLast? = part.extension.toList.getLast? := by
  rw [toList_name]
  cases part <;> simp [extension]

/-- A name tells the key, and the part within its directory. -/
theorem name_injective {part part' : Part} {key key' : String}
    (hdir : part = .record ↔ part' = .record) (h : part.name key = part'.name key') :
    part = part' ∧ key = key' := by
  have hpart : part = part' := by
    have hlast : part.extension.toList.getLast? = part'.extension.toList.getLast? := by
      rw [← getLast?_name part key, h, getLast?_name]
    cases part <;> cases part' <;> simp_all [extension]
  refine ⟨hpart, ?_⟩
  subst hpart
  have hlist := congrArg String.toList h
  rw [toList_name, toList_name] at hlist
  exact String.toList_injective (List.append_cancel_right hlist)

theorem isComponent_name (part : Part) {key : String} (hkey : '/' ∉ key.toList) :
    Path.IsComponent (part.name key) := by
  have hlast : (part.name key).toList.getLast? ≠ some '.' ∧
      (part.name key).toList.getLast? ≠ none := by
    rw [getLast?_name]
    cases part <;> decide
  refine ⟨?_, ?_, ?_⟩
  · rw [toList_name]
    cases part <;> simp [extension, hkey]
  · rw [Path.isStay, Bool.or_eq_false_iff, beq_eq_false_iff_ne, beq_eq_false_iff_ne]
    constructor
    · intro h
      exact hlast.2 (by rw [h]; rfl)
    · intro h
      exact hlast.1 (by rw [h]; rfl)
  · rw [beq_eq_false_iff_ne]
    intro h
    exact hlast.1 (by rw [h]; rfl)

/-- The name of the directory that a part is in. -/
def folder : Part → String
  | library | staged => "binaries"
  | record => "metadata"

theorem isComponent_folder (part : Part) : Path.IsComponent part.folder := by
  cases part <;> exact ⟨by decide, by decide, by decide⟩

theorem dir_eq_join (s : Store) (part : Part) : part.dir s = Path.join s.root part.folder := by
  cases part <;> rfl

theorem getLast?_dir (s : Store) (part : Part) : (part.dir s).toList.getLast? ≠ some '/' := by
  rw [dir_eq_join]
  exact Path.getLast?_join part.isComponent_folder s.root

theorem dir_ne_empty (s : Store) (part : Part) : part.dir s ≠ "" := by
  rw [dir_eq_join]
  exact Path.join_ne_empty part.isComponent_folder s.root

/-- The directory that a part is in, if the root of the store is at `home`. -/
def shelf (part : Part) (home : Place) : Place :=
  home ++ [part.folder]

theorem resolve_dir (s : Store) (cwd : Place) (part : Part) :
    Path.resolve cwd (part.dir s) = part.shelf (Path.resolve cwd s.root) := by
  rw [dir_eq_join, Path.resolve_join part.isComponent_folder, shelf]

/-- The place of a part of a key, if the root of the store is at `home`. -/
def placeIn (part : Part) (home : Place) (key : String) : Place :=
  part.shelf home ++ [part.name key]

end Part

/-- The path of a part of a key. -/
def path (s : Store) (part : Part) (key : String) : String :=
  Path.join (part.dir s) (part.name key)

theorem binaryPath_eq (s : Store) (key : String) : s.binaryPath key = s.path .library key := by
  rfl

theorem metadataPath_eq (s : Store) (key : String) : s.metadataPath key = s.path .record key := by
  have hname : s!"{key}.yaml" = Part.record.name key := by
    change key ++ ".yaml" = key ++ "." ++ "yaml"
    rw [String.append_assoc]
    rfl
  rw [metadataPath, hname]
  rfl

theorem stagingPath_eq (s : Store) {key : String} (hkey : IsKey key) :
    s.stagingPath key = s.path .staged key := by
  have hlibrary := Path.toList_join (Part.library.isComponent_name hkey.no_slash)
    (Part.dir_ne_empty s .library) (Part.getLast?_dir s .library)
  have hstaged := Path.toList_join (Part.staged.isComponent_name hkey.no_slash)
    (Part.dir_ne_empty s .staged) (Part.getLast?_dir s .staged)
  have hname : '/' ∉ (Part.library.name key).toList :=
    (Part.library.isComponent_name hkey.no_slash).no_slash
  have hstem : Path.stem (Part.library.name key).toList = key.toList := by
    rw [Part.toList_name]
    exact Path.stem_append (by simpa using hkey.ne_empty) (by decide)
  have hdot : (key.toList == ['.']) = false := by
    rw [beq_eq_false_iff_ne]
    intro h
    exact hkey.ne_dot (String.toList_injective h)
  refine String.toList_injective ?_
  rw [stagingPath, binaryPath_eq, path, Path.withExtension_of_toList hlibrary hname, hstem, hdot,
    Bool.false_and, if_neg Bool.false_ne_true, String.toList_ofList, path, hstaged,
    Part.toList_name]
  rfl

/-- The place of a part of a key. -/
def place (s : Store) (cwd : Place) (part : Part) (key : String) : Place :=
  Path.resolve cwd (part.dir s) ++ [part.name key]

/-- It is decided by where the root is, and not by how that is spelled. -/
theorem place_eq (s : Store) (cwd : Place) (part : Part) (key : String) :
    s.place cwd part key = part.placeIn (Path.resolve cwd s.root) key := by
  rw [place, Part.resolve_dir, Part.placeIn]

theorem resolve_path (s : Store) (cwd : Place) (part : Part) {key : String}
    (hkey : '/' ∉ key.toList) : Path.resolve cwd (s.path part key) = s.place cwd part key :=
  Path.resolve_join (part.isComponent_name hkey) cwd _

theorem resolve_path_of_home {s : Store} {cwd home : Place} (hhome : Path.resolve cwd s.root = home)
    (part : Part) {key : String} (hkey : '/' ∉ key.toList) :
    Path.resolve cwd (s.path part key) = part.placeIn home key := by
  rw [resolve_path s cwd part hkey, place_eq, hhome]

/-- Even if there are slashes in the key, its path leads to a name with the extension of the
part. -/
theorem exists_resolve_path (s : Store) (cwd : Place) (part : Part) (key : String) :
    ∃ dir key', Path.resolve cwd (s.path part key) = dir ++ [part.name key'] := by
  obtain ⟨before, hbefore⟩ := Path.exists_toList_join (part.dir s) (part.name key)
  have hextension : '/' ∉ '.' :: part.extension.toList := by
    cases part <;> decide
  rw [Part.toList_name, ← List.append_assoc] at hbefore
  -- the name begins after the last slash before the extension
  obtain ⟨fields, last, hfields⟩ :=
    Text.exists_splitOn_append hextension (before ++ key.toList)
  have hlast : '/' ∉ last := by
    have hmem : last ++ '.' :: part.extension.toList ∈
        Text.splitOn '/' (before ++ key.toList ++ '.' :: part.extension.toList) := by
      rw [hfields]
      simp
    intro h
    exact Text.not_mem_of_mem_splitOn hmem (List.mem_append_left _ h)
  have hname : String.ofList (last ++ '.' :: part.extension.toList) =
      part.name (String.ofList last) := by
    refine String.toList_injective ?_
    rw [Part.toList_name, String.toList_ofList, String.toList_ofList]
  have hcomponent : Path.IsComponent (part.name (String.ofList last)) :=
    part.isComponent_name (by rwa [String.toList_ofList])
  have hsegments : Path.segments (s.path part key) =
      fields.map String.ofList ++ [part.name (String.ofList last)] := by
    rw [Path.segments, path, hbefore, hfields, List.map_append, List.map_singleton, hname]
  rw [Path.resolve, Path.route, hsegments, ← List.append_assoc, List.foldl_append, List.foldl_cons,
    List.foldl_nil, hcomponent.walk_eq]
  exact ⟨_, String.ofList last, rfl⟩

/-- No path of one part leads to another. -/
theorem resolve_path_ne (s : Store) (cwd : Place) {part part' : Part} (hne : part ≠ part')
    (key key' : String) : Path.resolve cwd (s.path part key) ≠ s.place cwd part' key' := by
  obtain ⟨dir, key'', hdir⟩ := exists_resolve_path s cwd part key
  rw [hdir, place]
  intro heq
  have hname : part.name key'' = part'.name key' := by
    simpa using (List.append_inj' heq rfl).2
  have hlast : part.extension.toList.getLast? = part'.extension.toList.getLast? := by
    rw [← Part.getLast?_name part key'', hname, Part.getLast?_name]
  cases part <;> cases part' <;> simp_all [Part.extension]

/-- The records are in a directory of their own. -/
theorem metadataDir_ne (s : Store) (cwd : Place) {part : Part} (h : part ≠ .record) :
    Path.resolve cwd s.metadataDir ≠ Path.resolve cwd (part.dir s) := by
  have hrecord : Path.resolve cwd s.metadataDir = Part.record.shelf (Path.resolve cwd s.root) :=
    Part.resolve_dir s cwd .record
  rw [hrecord, Part.resolve_dir, Part.shelf, Part.shelf]
  cases part with
  | library => simp [Part.folder]
  | staged => simp [Part.folder]
  | record => exact absurd rfl h

theorem place_injective {s : Store} {cwd : Place} {part part' : Part} {key key' : String}
    (h : s.place cwd part key = s.place cwd part' key') : part = part' ∧ key = key' := by
  obtain ⟨hdir, hname⟩ := List.append_inj' h rfl
  refine Part.name_injective ?_ (by simpa using hname)
  constructor
  · rintro rfl
    by_contra hpart
    exact s.metadataDir_ne cwd hpart hdir
  · rintro rfl
    by_contra hpart
    exact s.metadataDir_ne cwd hpart hdir.symm

/-! ## Fingerprints -/

/-- The digested bytes tell the source and the command. -/
theorem fingerprintBytes_injective {rendered rendered' command command' : String}
    (hcommand : '\x00' ∉ command.toList) (hcommand' : '\x00' ∉ command'.toList)
    (h : fingerprintBytes rendered command = fingerprintBytes rendered' command') :
    rendered = rendered' ∧ command = command' := by
  have hsplit : Text.bytesOf rendered ++ 0 :: Text.bytesOf command =
      Text.bytesOf rendered' ++ 0 :: Text.bytesOf command' := by
    have hversion : (Text.bytesOf rendered ++ 0 :: Text.bytesOf command) ++ 0 :: Text.bytesOf version =
        (Text.bytesOf rendered' ++ 0 :: Text.bytesOf command') ++ 0 :: Text.bytesOf version := by
      simpa [fingerprintBytes] using h
    exact List.append_cancel_right hversion
  obtain ⟨hr, hc⟩ := Text.append_cons_inj_of_not_mem (Text.zero_not_mem_bytesOf hcommand)
    (Text.zero_not_mem_bytesOf hcommand') hsplit
  exact ⟨Text.bytesOf_injective hr, Text.bytesOf_injective hc⟩

end Store
end Loopsmith
