import Loopsmith.Files.Tree
import Loopsmith.Store.Digest
import Loopsmith.Store.Metadata
import Loopsmith.Version

/-!
# The artifact store

Libraries that were built once are kept in a directory and found again by a
fingerprint of everything they were built from: the rendered source, the compiler
command and the version of this library, with a zero byte between them.  Below the
root, `binaries` has the libraries and `metadata` has a record for each.

A lookup trusts the record and nothing else: the library is the one the record
names, wherever that is.  So the record is written last, after the library has been
copied under another name and moved to its place.  When `put` fails, what it did
until then stays; the record of the key is not touched before the last step.
-/

namespace Loopsmith

structure Store where
  root : String
  deriving DecidableEq, Repr

/-- What failed in a store. -/
inductive StoreError where
  | makeBinaries (e : FileError)
  | makeMetadata (e : FileError)
  | openRecord (e : FileError)
  | unreadableRecord
  | copyLibrary (library : String) (e : FileError)
  | publish (path : String) (e : FileError)
  | openLibrary (path : String) (e : FileError)
  | mapLibrary (e : FileError)
  | createRecord (e : FileError)
  deriving DecidableEq, Repr

def StoreError.message : StoreError → String
  | makeBinaries e => s!"failed to create binaries store directory: {e.message}"
  | makeMetadata e => s!"failed to create metadata store directory: {e.message}"
  | openRecord e => s!"failed to open artifact metadata: {e.message}"
  | unreadableRecord => "failed to deserialise artifact metadata"
  | copyLibrary library e => s!"failed to copy {library} into the artifact store: {e.message}"
  | publish path e => s!"failed to publish {path}: {e.message}"
  | openLibrary path e => s!"failed to open stored library {path}: {e.message}"
  | mapLibrary e => s!"failed to memory-map stored library: {e.message}"
  | createRecord e => s!"failed to open artifact metadata file: {e.message}"

/-! ## Records -/

namespace Metadata

def readFrom (files : FileTree) (path : String) : Except StoreError Metadata :=
  match files.find path with
  | .error e => .error (.openRecord e)
  | .ok .directory => .error .unreadableRecord
  | .ok (.file bytes) =>
      match read? bytes with
      | some m => .ok m
      | none => .error .unreadableRecord

def writeTo (m : Metadata) (files : FileTree) (path : String) : Except StoreError FileTree :=
  match files.writeFile path m.write with
  | .ok files' => .ok files'
  | .error e => .error (.createRecord e)

end Metadata

/-- The size of a library in bytes. -/
def librarySize (files : FileTree) (path : String) : Except StoreError Nat :=
  match files.find path with
  | .error e => .error (.openLibrary path e)
  | .ok .directory => .error (.mapLibrary .noDevice)
  | .ok (.file bytes) => .ok bytes.length

namespace Store

/-- The extension of libraries. -/
def libraryExtension : String := "so"

/-! ## Where things are -/

def binariesDir (s : Store) : String :=
  Path.join s.root "binaries"

def metadataDir (s : Store) : String :=
  Path.join s.root "metadata"

def binaryPath (s : Store) (key : String) : String :=
  Path.join s.binariesDir s!"{key}.{libraryExtension}"

def metadataPath (s : Store) (key : String) : String :=
  Path.join s.metadataDir s!"{key}.yaml"

/-- Where a library is copied to before it is moved to its place. -/
def stagingPath (s : Store) (key : String) : String :=
  Path.withExtension (s.binaryPath key) "tmp"

/-- What the fingerprint is a digest of. -/
def fingerprintBytes (rendered command : String) : List UInt8 :=
  Text.bytesOf rendered ++ 0 :: (Text.bytesOf command ++ 0 :: Text.bytesOf version)

/-- The key of what is built from a source by a command. -/
def fingerprint (rendered command : String) : String :=
  Digest.sha1 (fingerprintBytes rendered command)

/-! ## Operations -/

/-- Makes the directories of a store. -/
def openAt (root : String) (files : FileTree) : Except StoreError Store × FileTree :=
  let s : Store := ⟨root⟩
  match files.makeDirectories s.binariesDir with
  | (.error e, files) => (.error (.makeBinaries e), files)
  | (.ok (), files) =>
      match files.makeDirectories s.metadataDir with
      | (.error e, files) => (.error (.makeMetadata e), files)
      | (.ok (), files) => (.ok s, files)

structure Entry where
  key : String
  metadata : Metadata
  deriving DecidableEq, Repr

/-- The entry of a key, if it has a record that names a library that exists. -/
def lookup (s : Store) (files : FileTree) (key : String) : Except StoreError (Option Entry) :=
  if !files.hasPath (s.metadataPath key) then .ok none
  else do
    let m ← Metadata.readFrom files (s.metadataPath key)
    return if files.hasPath m.binary then some ⟨key, m⟩ else none

/-- The library that the record of a key names, if it does not exist. -/
def missingLibrary? (s : Store) (files : FileTree) (key : String) : Option String :=
  match Metadata.readFrom files (s.metadataPath key) with
  | .error _ => none
  | .ok m => if files.hasPath m.binary then none else some m.binary

/-- Puts a copy of a library in its place. -/
def publish (s : Store) (files : FileTree) (key library : String) :
    Except StoreError Unit × FileTree :=
  match files.copy library (s.stagingPath key) with
  | .error e => (.error (.copyLibrary library e), files)
  | .ok staged =>
      match staged.rename (s.stagingPath key) (s.binaryPath key) with
      | .error e => (.error (.publish (s.binaryPath key) e), staged)
      | .ok files => (.ok (), files)

/-- Stores a library under a key, `now` being the time. -/
def put (s : Store) (files : FileTree) (now : Timestamp) (key library command : String)
    (buildMilliseconds sourceLength : Nat) : Except StoreError Entry × FileTree :=
  match s.publish files key library with
  | (.error e, files) => (.error e, files)
  | (.ok (), files) =>
      match librarySize files (s.binaryPath key) with
      | .error e => (.error e, files)
      | .ok size =>
          let m : Metadata :=
            { key, createdAt := now, version, command, binary := s.binaryPath key,
              binarySize := size, buildMilliseconds, sourceLength }
          match m.writeTo files (s.metadataPath key) with
          | .error e => (.error e, files)
          | .ok files => (.ok ⟨key, m⟩, files)

end Store
end Loopsmith
