import Loopsmith.Yaml.Cursor

/-!
# Folding of lines

Plain and quoted scalars may go on over several lines.  Blanks within a line are kept.
At the end of a line they are dropped together with the blanks that the next line starts
with, and the end of the line reads as one space, unless empty lines follow: then these
stand for themselves and the first end of a line is dropped.
-/

namespace Loopsmith
namespace Yaml

/-- What lies between two words of a scalar. -/
structure Gap where
  /-- The blanks, as long as the line has not ended, the last one first. -/
  blanks : List Char := []
  /-- Whether a line has ended. -/
  broken : Bool := false
  /-- How the first line ended. -/
  first : Option Char := none
  /-- The ends of the lines after that, the last one first. -/
  others : List Char := []
  deriving DecidableEq, Repr

namespace Gap

/-- What a gap reads as when a word follows. -/
def text (g : Gap) : List Char :=
  if !g.broken then g.blanks.reverse
  else if g.first != some '\n' then g.first.toList ++ g.others.reverse
  else if g.others.isEmpty then [' ']
  else g.others.reverse

def addBlank (g : Gap) (x : Char) : Gap :=
  if g.broken then g else { g with blanks := x :: g.blanks }

def addBreak (g : Gap) (x : Char) : Gap :=
  if g.broken then { g with others := x :: g.others }
  else { g with blanks := [], broken := true, first := some x }

/-- Reads on to the next word.  At the head of a line no tab may stand left of the column
`indent`. -/
def read (indent : Nat) (g : Gap) (index line column : Nat) :
    List Char → Option (Gap × Cursor)
  | '\r' :: '\n' :: rest => read indent (g.addBreak '\n') (index + 2) (line + 1) 0 rest
  | x :: rest =>
      if isBreak x then read indent (g.addBreak (breakText x)) (index + 1) (line + 1) 0 rest
      else if !isBlank x then some (g, { rest := x :: rest, index, line, column })
      else if x == '\t' && g.broken && column < indent then none
      else read indent (g.addBlank x) (index + 1) line (column + 1) rest
  | [] => some (g, { rest := [], index, line, column })

end Gap

/-- The gap that starts here, as a part of `g`. -/
def Cursor.gap? (c : Cursor) (indent : Nat) (g : Gap) : Option (Gap × Cursor) :=
  g.read indent c.index c.line c.column c.rest

end Yaml
end Loopsmith
