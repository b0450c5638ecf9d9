import Loopsmith.Yaml.Folding

/-!
# Plain scalars

A plain scalar is written without quotes, so what follows decides where it ends: a colon
before a blank ends a key, a number sign after a blank starts a comment, and between
brackets the marks of lists end it too.  It goes on over lines that are further to the
right than what it belongs to.
-/

namespace Loopsmith
namespace Yaml

/-- The marks between brackets. -/
def flowMarks : List Char :=
  [',', '[', ']', '\x7b', '\x7d']

/-- Characters that have a meaning of their own at the head of a scalar. -/
def indicators : List Char :=
  flowMarks ++ ['-', '?', ':', '#', '&', '*', '!', '|', '>', '\'', '"', '%', '@', '\x60']

/-- Whether a plain scalar starts here; `flow` says that this is between brackets. -/
def Cursor.startsPlain (c : Cursor) (flow : Bool) : Bool :=
  match c.rest with
  | [] => false
  | x :: rest =>
      if x == '-' then !rest.head?.any isBlank
      else if x == '?' || x == ':' then !flow && !c.gapAt 1
      else !isGap x && !indicators.contains x

namespace Plain

/-- Whether a scalar ends before `x`, which the rest of the text follows. -/
def ends (flow : Bool) (x : Char) (rest : List Char) : Bool :=
  isGap x || (x == ':' && rest.head?.all isGap) || (flow && flowMarks.contains x)

/-- A colon between brackets that is attached to a mark is neither part of a word nor
the end of a key. -/
def misplaced (flow : Bool) (x : Char) (rest : List Char) : Bool :=
  flow && x == ':' && rest.head?.any ('?' :: flowMarks).contains

/-- The word that starts here. -/
def word (flow : Bool) : List Char → Option (List Char)
  | [] => some []
  | x :: rest =>
      if misplaced flow x rest then none
      else if ends flow x rest then some []
      else (word flow rest).map (x :: ·)

/-- A plain scalar as it was read. -/
structure Reading where
  /-- Its words and gaps, the last one first. -/
  parts : List (List Char)
  /-- Whether the last word was followed by the end of a line. -/
  broken : Bool
  after : Cursor
  deriving DecidableEq, Repr

def Reading.text (r : Reading) : String :=
  String.ofList r.parts.reverse.flatten

/-- Reads on after some parts and a gap; the last argument bounds the number of words. -/
def read (flow : Bool) (indent : Nat) (parts : List (List Char)) (gap : Gap) (c : Cursor) :
    Nat → Option Reading
  | 0 => none
  | fuel + 1 =>
      if c.atBoundary || c.isAt '#' then some ⟨parts, gap.broken, c⟩
      else do
        let w ← word flow c.rest
        if w.isEmpty then some ⟨parts, gap.broken, c⟩
        else
          let parts := w :: gap.text :: parts
          let c := c.advance w.length
          if !c.rest.head?.any isGap then some ⟨parts, false, c⟩
          else
            let (gap, c) ← c.gap? indent {}
            if !flow && c.column < indent then some ⟨parts, gap.broken, c⟩
            else read flow indent parts gap c fuel

end Plain

/-- Reads a plain scalar of at most `limit` characters; outside brackets its lines start at
the column `indent` or further to the right. -/
def Cursor.plain? (c : Cursor) (limit : Nat) (flow : Bool) (indent : Nat) :
    Option Plain.Reading :=
  Plain.read flow indent [] {} c (limit + 1)

end Yaml
end Loopsmith
