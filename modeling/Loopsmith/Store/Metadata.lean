import Loopsmith.Store.Timestamp
import Loopsmith.Text.Utf8
import Loopsmith.Yaml.Record

/-!
# What is recorded with a stored library

A record stands beside each stored library and says what it was built with, when, and
where the library is.  It is a YAML record of eight keys.  All of them have to be
there, none of them twice; other keys are ignored.
-/

namespace Loopsmith

structure Metadata where
  key : String
  createdAt : Timestamp
  version : String
  command : String
  /-- Where the library is. -/
  binary : String
  binarySize : Nat
  buildMilliseconds : Nat
  /-- The size of the rendered source, in bytes. -/
  sourceLength : Nat
  deriving DecidableEq, Repr

namespace Metadata

def largest64 : Nat := Nat.pow 2 64 - 1

def largest128 : Nat := Nat.pow 2 128 - 1

/-- The one value of a key. -/
def unique? (entries : List (String × Yaml.Value)) (key : String) : Option Yaml.Scalar :=
  match entries.filter (·.1 == key) with
  | [(_, .scalar s)] => some s
  | _ => none

def ofEntries? (entries : List (String × Yaml.Value)) : Option Metadata := do
  let scalar (key : String) : Option Yaml.Scalar := unique? entries key
  return {
    key := (← scalar "key").text
    createdAt := ← Timestamp.read (← scalar "created_at").text
    version := (← scalar "crate_version").text
    command := (← scalar "compiler_command").text
    binary := (← scalar "binary_path").text
    binarySize := ← (← scalar "binary_size").natural? largest64
    buildMilliseconds := ← (← scalar "build_time_ms").natural? largest128
    sourceLength := ← (← scalar "source_len").natural? largest64 }

/-- Reads the bytes of a record. -/
def read? (bytes : List UInt8) : Option Metadata := do
  let cs ← Text.decode? bytes
  ofEntries? (← Yaml.parse? cs)

def line (key value : String) : String :=
  key ++ ": " ++ value ++ "\n"

/-- The text of a record. -/
def text (m : Metadata) : String :=
  let quoted (key value : String) : String := line key (Yaml.Quoted.write value)
  String.join [quoted "key" m.key, quoted "created_at" m.createdAt.text,
    quoted "crate_version" m.version, quoted "compiler_command" m.command,
    quoted "binary_path" m.binary, line "binary_size" (toString m.binarySize),
    line "build_time_ms" (toString m.buildMilliseconds),
    line "source_len" (toString m.sourceLength)]

def write (m : Metadata) : List UInt8 :=
  Text.bytesOf m.text

end Metadata
end Loopsmith
