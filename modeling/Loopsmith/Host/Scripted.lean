import Loopsmith.Host

/-!
# A scripted host

A host whose compilers follow a script instead of compiling, for trying the library out
and for examples that can be computed.  There is a compiler for each way in which a
compilation can go: it copies the source, prints something, fails, dies, or writes
nothing.

Two loaders go with them.  `load` looks at the library and knows the two that
`native-cc` and `nosym-cc` write; `loadNumbered` takes any library, fails when told to, and
gives out sixteen entry points in turn.  All bodies do the same.
-/

namespace Loopsmith
namespace Scripted

/-! ## Compilers -/

/-- A library that has an entry point. -/
def nativeLibrary : List UInt8 :=
  Text.bytesOf "\x7fELF with an entry point"

/-- A library that has none. -/
def bareLibrary : List UInt8 :=
  Text.bytesOf "\x7fELF without an entry point"

def isLibrary (bytes : List UInt8) : Bool :=
  bytes == nativeLibrary || bytes == bareLibrary

/-- What the arguments of a compiler end in: the source, `-o` and the library. -/
def sourceAndLibrary (arguments : List String) : String × String :=
  match arguments.reverse with
  | library :: _ :: source :: _ => (source, library)
  | _ => ("", "")

/-- A compiler. -/
abbrev Script := List String → FileTree → Finished

/-- Prints a text and ends. -/
def prints (output : List UInt8) (status : Option Int) : Script :=
  fun _ files => ⟨files, output, status⟩

/-- Copies the source to the library, and prints a text that depends on the arguments. -/
def copies (text : List String → String) (status : Int) : Script :=
  fun arguments files =>
    let (source, library) := sourceAndLibrary arguments
    match (do files.writeFile library (← files.readFile source)) with
    | .ok files => ⟨files, Text.bytesOf (text arguments), some status⟩
    | .error _ => ⟨files, Text.bytesOf (text arguments), some 1⟩

/-- Writes a library whatever the source says. -/
def writes (bytes : List UInt8) : Script :=
  fun arguments files =>
    match files.writeFile (sourceAndLibrary arguments).2 bytes with
    | .ok files => ⟨files, [], some 0⟩
    | .error _ => ⟨files, [], some 1⟩

/-- Each argument on a line, those at even and at odd places marked differently. -/
def chatter (arguments : List String) : String :=
  String.join <| arguments.zipIdx.map fun (a, i) =>
    (if i % 2 == 0 then "out " else "err ") ++ a ++ "\n"

/-- The status that a first argument `--status=N` asks for. -/
def wantedStatus : List String → Nat
  | [] => 1
  | a :: _ =>
      let option := "--status=".toList
      if option.isPrefixOf a.toList then
        (Decimal.ofDigits (a.toList.drop option.length)) % 256
      else 1

def failureText : String :=
  "fail-cc: reading source\nfail-cc: error: expected ';'\n"

/-- Bytes that are not text. -/
def strayBytes : List UInt8 :=
  [0x61, 0xff, 0xfe, 0x62, 0xe2, 0x82, 0x20, 0x63, 0xf0, 0x9f, 0x98, 0x80, 0x20, 0xed, 0xa0, 0x80,
   0x20, 0xc0, 0xaf, 0x7a, 0xe2, 0x82]

/-- The compilers by name. -/
def programs : String → Option Script
  | "ok-cc" | "ok-c++" => some (copies (fun _ => "") 0)
  | "chatty-cc" => some (copies chatter 0)
  | "fail-cc" => some fun arguments =>
      prints (Text.bytesOf failureText) (some (wantedStatus arguments)) arguments
  | "nolib-cc" => some (prints (Text.bytesOf "nothing written\n") (some 0))
  | "halflib-cc" => some (copies (fun _ => "") 2)
  | "kill-cc" => some (prints (Text.bytesOf "about to die\n") none)
  | "bytes-cc" => some (prints strayBytes (some 1))
  | "stdin-cc" => some (prints (Text.bytesOf "stdin bytes: 0\n") (some 4))
  | "native-cc" => some (writes nativeLibrary)
  | "nosym-cc" => some (writes bareLibrary)
  | _ => none

/-! ## Libraries -/

/-- How many entry points the numbering loader gives out. -/
def numberedEntries : Nat := 16

/-- Whether an entry point was given out by the numbering loader. -/
def isNumbered (entry : EntryPoint) : Bool :=
  entry < numberedEntries

/-- Loads a library by what is in it; `reason` is what the system says when it cannot. -/
def load (reason : String) : Loader :=
  fun _ files library =>
    match files.readFile library with
    | .error _ => .error ⟨reason, false⟩
    | .ok bytes =>
        if bytes == nativeLibrary then .ok numberedEntries
        else if bytes == bareLibrary then
          .error ⟨s!"symbol `{entrySymbol}` not found: {reason}", true⟩
        else .error ⟨reason, false⟩

/-- Loads any library, numbering them; the lists say which loads fail and which libraries
have no entry point. -/
def loadNumbered (failing bare : List Nat) : Loader :=
  fun n _ _ =>
    if failing.contains n then .error ⟨"scripted load failure", false⟩
    else if bare.contains n then .error ⟨s!"no symbol `{entrySymbol}`", true⟩
    else .ok (n % numberedEntries)

/-- What all bodies do: the status is the sum of the iteration, the number of arguments
and the integers among them, and one is added to the cell behind each pointer. -/
def enter (_ : EntryPoint) (iteration : Int64) (pack : Pack) (memory : Memory) : Int32 × Memory :=
  let sum := (pack.values.filterMap Value.int?).foldl (· + ·) (iteration + Int64.ofNat pack.size)
  let pointers := (pack.values.filterMap Value.pointer?).filter (· != 0)
  (sum.toInt32, pointers.foldl (fun m p => m.update p (· + 1)) memory)

/-- A host with these compilers; `calls` are made by every body that was numbered. -/
def host (hash : TemplateHash) (temporaryDir : String)
    (load : Loader) (calls : List Call) : Host :=
  { hash
    toolchain := .ofPrograms programs
    load
    enter
    calls := fun entry _ _ => if isNumbered entry then calls else []
    temporaryDir
    now := ⟨0, 0⟩
    duration := fun _ => 0 }

end Scripted
end Loopsmith
