import Loopsmith.Compiler.Command
import Loopsmith.Event
import Loopsmith.Files.Tree

/-!
# Running a compiler

A toolchain runs programs over the file tree.  What it does is not for this library
to say, so everything below takes it as an argument; `compileShared` only decides
which arguments the compiler gets and what its ending means.

The compiler has done its job when it ends with status zero and the library is
there.  Without a status (the program could not be started, was killed, or wrote no
library) the error carries none, and what the program printed stands for the reason.
-/

namespace Loopsmith

/-- How a program that was started ended. -/
structure Finished where
  files : FileTree
  /-- Everything it printed, in the order in which it did. -/
  output : List UInt8
  /-- None if it was killed. -/
  status : Option Int

/-- Runs a program with arguments, or says why it cannot be started. -/
abbrev Toolchain := String → List String → FileTree → Except String Finished

namespace Toolchain

/-- The arguments that ask for `library` to be made from `source`. -/
def compilerArguments (leading : List String) (source library : String) : List String :=
  leading ++ Command.sharedFlags ++ [source, "-o", library]

/-- What came of compiling a source. -/
structure Compilation where
  /-- What the compiler printed. -/
  result : Except SpecializationError String
  files : FileTree
  events : List Event := []

/-- Makes a shared library. -/
def compileShared (run : Toolchain) (command source library : String) (files : FileTree) :
    Compilation :=
  match Command.parse? command with
  | none => { result := .error (.compile command none "empty compiler command"), files }
  | some c =>
      let arguments := compilerArguments c.arguments source library
      let started := Event.compilerStarted c.program arguments
      match run c.program arguments files with
      | .error reason =>
          { result := .error (.compile command none reason), files, events := [started] }
      | .ok ended =>
          let output := String.ofList (Text.decodeLossy ended.output)
          let result :=
            if ended.status != some 0 then .error (.compile command ended.status output)
            else if !ended.files.hasPath library then .error (.compile command none output)
            else .ok output
          { result, files := ended.files, events := [started, .compilerEnded output] }

/-- A toolchain of programs known by name.  A program named by a path is looked for in
the tree, where nothing can be executed. -/
def ofPrograms (programs : String → Option (List String → FileTree → Finished)) : Toolchain :=
  fun program arguments files =>
    if (program :: arguments).any (·.toList.contains '\x00') then
      .error "nul byte found in provided data"
    else if program.toList.contains '/' then
      match files.find program with
      | .error e => .error e.message
      | .ok _ => .error FileError.denied.message
    else if program == "." || program == ".." then .error FileError.denied.message
    else if program.utf8ByteSize > FileTree.longestName then .error FileError.nameTooLong.message
    else
      match programs program with
      | none => .error FileError.notFound.message
      | some run => .ok (run arguments files)

end Toolchain
end Loopsmith
