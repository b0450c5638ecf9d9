import Loopsmith.Yaml.Cursor

/-!
# Block scalars

A bar or a bigger-than sign starts a scalar of whole lines, all as far to the right as
the first one unless a digit says how far.  After a bar the lines are kept; after a
bigger-than sign they are folded, except around lines that start with a blank.  A minus
drops the ends of lines at the end, a plus keeps them all, and otherwise one is kept.
-/

namespace Loopsmith
namespace Yaml

/-- What becomes of the ends of lines at the end. -/
inductive Chomping where
  | strip
  | clip
  | keep
  deriving DecidableEq, Repr

namespace Block

/-! ## The first line -/

def chomping? (c : Cursor) : Option Chomping :=
  if c.isAt '+' then some .keep
  else if c.isAt '-' then some .strip
  else none

/-- Reads a digit other than zero, if there is a digit. -/
def readWidth (c : Cursor) : Option (Option Nat × Cursor) :=
  match c.rest.head?.filter Char.isDigit with
  | none => some (none, c)
  | some x => if x == '0' then none else some (some (x.toNat - 48), c.advance 1)

/-- Reads the chomping and the width, in either order. -/
def readHeader (c : Cursor) : Option (Chomping × Option Nat × Cursor) :=
  match chomping? c with
  | some chomping => (readWidth (c.advance 1)).map fun (width, c) => (chomping, width, c)
  | none => do
      let (width, c) ← readWidth c
      match width, chomping? c with
      | some _, some chomping => some (chomping, width, c.advance 1)
      | _, _ => some (.clip, width, c)

/-! ## The lines -/

/-- Goes past the indentation, which ends at the column `indent` if that is known. -/
def skipIndent (indent : Option Nat) (c : Cursor) : Cursor :=
  let spaces := (c.rest.takeWhile (· == ' ')).length
  c.advance (match indent with
    | none => spaces
    | some n => min spaces (n - c.column))

/-- Reads empty lines: gives their ends, the last one first, the widest indentation among
them and the line after them, and that line's start.  Tabs are not allowed as
indentation. -/
def readEmpty (indent : Option Nat) (widest : Nat) (breaks : List Char) (c : Cursor) :
    Nat → Option (Nat × List Char × Cursor)
  | 0 => none
  | fuel + 1 =>
      let c := skipIndent indent c
      let widest := max widest c.column
      if indent.all (c.column < ·) && c.isAt '\t' then none
      else if c.rest.head?.any isBreak then
        let (b, c) := c.takeBreak
        readEmpty indent widest (b ++ breaks) c fuel
      else some (widest, breaks, c)

/-- What has been read of a block scalar. -/
structure Reading where
  /-- The lines and what stands between them, the last part first. -/
  parts : List (List Char) := []
  /-- The end of the last line. -/
  last : List Char := []
  /-- The ends of the empty lines after it, the last one first. -/
  empty : List Char := []
  /-- Whether the last line starts with a blank. -/
  indented : Bool := false
  deriving DecidableEq, Repr

namespace Reading

/-- What stands between the last line and the next one. -/
def joint (r : Reading) (folded indented : Bool) : List Char :=
  if folded && r.last == ['\n'] && !r.indented && !indented then
    (if r.empty.isEmpty then [' '] else r.empty.reverse)
  else r.last ++ r.empty.reverse

def text (r : Reading) (chomping : Chomping) : String :=
  let tail := match chomping with
    | .strip => []
    | .clip => r.last
    | .keep => r.last ++ r.empty.reverse
  String.ofList (r.parts.reverse.flatten ++ tail)

end Reading

/-- Reads the lines that start at the column `indent`; `limit` and the last argument bound
their number. -/
def readLines (limit : Nat) (folded : Bool) (indent : Nat) (r : Reading) (c : Cursor) :
    Nat → Option (Reading × Cursor)
  | 0 => none
  | fuel + 1 =>
      if c.column != indent || c.rest.isEmpty then some (r, c)
      else do
        let indented := c.rest.head?.any isBlank
        let line := c.rest.takeWhile (!isBreak ·)
        let (last, c) := (c.advance line.length).takeBreak
        let (_, empty, c) ← readEmpty (some indent) 0 [] c limit
        let parts := line :: r.joint folded indented :: r.parts
        readLines limit folded indent ⟨parts, last, empty, indented⟩ c fuel

end Block

/-- Reads a block scalar of less than `limit` characters from its mark; `outer` is the
column of what it belongs to. -/
def Cursor.block? (c : Cursor) (limit : Nat) (folded : Bool) (outer : Option Nat) :
    Option (String × Cursor) := do
  let (chomping, width, c) ← Block.readHeader (c.advance 1)
  let c ← c.endLine?
  let given := width.map (outer.getD 0 + ·)
  let (widest, empty, c) ← Block.readEmpty given 0 [] c limit
  let indent := given.getD (max widest (max ((outer.map (· + 1)).getD 0) 1))
  let (r, c) ← Block.readLines limit folded indent { empty } c limit
  return (r.text chomping, c)

end Yaml
end Loopsmith
