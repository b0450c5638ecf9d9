/-!
# A place in a YAML text

Where a thing stands decides what it is: columns give the structure, and a key has to
end on the line it starts on.  A cursor is what is left of a text together with the
number of characters before it, its line and its column.

Five characters end a line, and a return with a line feed is one end.  The two
separators of lines and paragraphs are kept as they are; the other ends of lines all
read as line feeds.
-/

namespace Loopsmith
namespace Yaml

/-! ## Characters -/

def isBlank (c : Char) : Bool :=
  c == ' ' || c == '\t'

def isBreak (c : Char) : Bool :=
  c == '\n' || c == '\r' || c == '\u0085' || c == '\u2028' || c == '\u2029'

/-- A blank or the end of a line. -/
def isGap (c : Char) : Bool :=
  isBlank c || isBreak c

/-- The characters of anchors, handles and directives. -/
def isWord (c : Char) : Bool :=
  c.isAlphanum || c == '_' || c == '-'

/-- The characters that a text may hold at all; others have to be escaped. -/
def isAllowed (c : Char) : Bool :=
  let n := c.toNat
  c == '\t' || c == '\n' || c == '\r' || (0x20 ≤ n && n ≤ 0x7e) || n == 0x85 ||
    (0xa0 ≤ n && n ≤ 0xfffd) || 0x10000 ≤ n

/-- What the end of a line reads as. -/
def breakText (c : Char) : Char :=
  if c == '\u2028' || c == '\u2029' then c else '\n'

/-! ## Cursors -/

structure Cursor where
  rest : List Char
  /-- The number of characters before this place. -/
  index : Nat := 0
  line : Nat := 0
  column : Nat := 0
  deriving DecidableEq, Repr

namespace Cursor

/-- Whether this character comes next. -/
def isAt (c : Cursor) (x : Char) : Bool :=
  c.rest.head? == some x

/-- Whether the next character is one of these. -/
def isAtAny (c : Cursor) (xs : List Char) : Bool :=
  c.rest.head?.any xs.contains

/-- Whether the `n`-th character from here is a blank or the end of a line, or there is
none. -/
def gapAt (c : Cursor) (n : Nat) : Bool :=
  c.rest[n]?.all isGap

/-- Whether nothing is left of the line. -/
def atLineEnd (c : Cursor) : Bool :=
  c.rest.head?.all isBreak

/-- Whether a line starts here with three of these characters and nothing attached to
them. -/
def atMarker (c : Cursor) (x : Char) : Bool :=
  c.column == 0 && c.rest.take 3 == [x, x, x] && c.gapAt 3

/-- Whether a document starts or ends here. -/
def atBoundary (c : Cursor) : Bool :=
  c.atMarker '-' || c.atMarker '.'

/-- Goes on by `n` characters of the line. -/
def advance (c : Cursor) (n : Nat) : Cursor :=
  { c with rest := c.rest.drop n, index := c.index + n, column := c.column + n }

/-- Goes on by the characters of the line that have a property. -/
def skipWhile (p : Char → Bool) (c : Cursor) : Cursor :=
  c.advance (c.rest.takeWhile p).length

/-- Goes on to this rest of the text, `n` characters further, on the next line. -/
def newLine (c : Cursor) (rest : List Char) (n : Nat) : Cursor :=
  { rest, index := c.index + n, line := c.line + 1, column := 0 }

/-- The end of a line as it reads, and the start of the next one. -/
def takeBreak (c : Cursor) : List Char × Cursor :=
  match c.rest with
  | '\r' :: '\n' :: rest => (['\n'], c.newLine rest 2)
  | x :: rest => if isBreak x then ([breakText x], c.newLine rest 1) else ([], c)
  | [] => ([], c)

/-- Goes past a comment, if there is one. -/
def skipComment (c : Cursor) : Cursor :=
  if c.isAt '#' then c.skipWhile (!isBreak ·) else c

/-- Goes to the next line, if nothing but blanks and a comment is left of this one. -/
def endLine? (c : Cursor) : Option Cursor :=
  let c := (c.skipWhile isBlank).skipComment
  if c.atLineEnd then some c.takeBreak.2 else none

end Cursor
end Yaml
end Loopsmith
