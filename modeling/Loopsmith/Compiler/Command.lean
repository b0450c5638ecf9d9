import Loopsmith.Files.Path
import Loopsmith.Text.Search

/-!
# Compiler commands

A command is a program and its leading arguments, separated by ASCII blanks;
there is no quoting.  The vertical tab is not a separator.  A driver with `++` in
its name is taken for a C++ compiler and gets its source as `.cpp`.
-/

namespace Loopsmith

structure Command where
  program : String
  arguments : List String
  deriving DecidableEq, Repr

namespace Command

def isSeparator (c : Char) : Bool :=
  c == ' ' || c == '\t' || c == '\n' || c == '\r' || c == '\x0c'

/-- The maximal stretches without a separator. -/
def words : List Char → List (List Char)
  | [] => []
  | [c] => if isSeparator c then [] else [[c]]
  | c :: d :: cs =>
      if isSeparator c then words (d :: cs)
      else if isSeparator d then [c] :: words (d :: cs)
      else
        match words (d :: cs) with
        | [] => [[c]]
        | w :: ws => (c :: w) :: ws

/-- Takes a command apart; a blank one names no program. -/
def parse? (command : String) : Option Command :=
  match (words command.toList).map String.ofList with
  | [] => none
  | program :: arguments => some ⟨program, arguments⟩

/-- The extension of sources for this command. -/
def sourceExtension (command : String) : String :=
  let program := ((parse? command).map Command.program).getD ""
  let name := (Path.fileName? program).getD program
  if Text.occursIn ['+', '+'] name.toList then "cpp" else "c"

/-- The flags that ask for a shared library. -/
def sharedFlags : List String := ["-fPIC", "-shared"]

end Command
end Loopsmith
