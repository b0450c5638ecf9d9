import Loopsmith.Text.Blank
import Loopsmith.Text.CodePoint

/-!
# The single characters of a pattern

A field of a log filter may be compared with a pattern.  What is needed of a pattern here
is whether it is one, since nothing that could match it is ever logged.

An atom is what stands for one character or for none.  Flags decide which atoms there
are: outside `(?-u)` characters are those of all scripts, and there are neither tables of
their classes nor of their cases, so classes like `\d`, word boundaries and letters under
`(?i)` are refused; inside it only ASCII can be told apart, so whatever stands for other
bytes is refused.
-/

namespace Loopsmith
namespace Pattern

structure Flags where
  /-- Cases of letters count as one. -/
  fold : Bool := false
  /-- Characters of all scripts. -/
  unicode : Bool := true
  /-- Blanks and comments are passed over. -/
  verbose : Bool := false
  deriving DecidableEq, Repr

inductive Atom where
  /-- A character; `byte` says that it is written by the two digits of a byte. -/
  | literal (c : Char) (byte : Bool)
  | anyChar
  /-- The start or end of a line or of the text. -/
  | edge
  /-- The start or end of a word. -/
  | wordEdge
  /-- Digits, blanks or word characters, or anything but them. -/
  | kind (negated : Bool)
  /-- Characters with a property. -/
  | property
  deriving DecidableEq, Repr

namespace Atom

/-- Whether there is such an atom under some flags. -/
def isKnown (f : Flags) : Atom → Bool
  | literal c byte => if f.unicode then !f.fold else !byte || c.toNat < 0x80
  | anyChar => f.unicode
  | edge => true
  | wordEdge => !f.unicode
  | kind negated => !f.unicode && !negated
  | property => false

/-- Whether it may be a member of a class. -/
def isMember (f : Flags) : Atom → Bool
  | literal c _ => if f.unicode then !f.fold else c.toNat < 0x80
  | kind negated => !f.unicode && !negated
  | _ => false

/-- Characters that have a meaning of their own. -/
def metaCharacters : List Char :=
  ['\\', '.', '+', '*', '?', '(', ')', '|', '[', ']', '\x7b', '\x7d', '^', '$', '#', '&', '-', '~']

/-- Characters that stand for themselves behind a backslash. -/
def isEscapable (c : Char) : Bool :=
  metaCharacters.contains c ||
    (c.toNat < 0x80 && !c.isAlphanum && c != '<' && c != '>')

def controlCharacter? : Char → Option Char
  | 'a' => some '\x07'
  | 'f' => some '\x0c'
  | 't' => some '\t'
  | 'n' => some '\n'
  | 'r' => some '\r'
  | 'v' => some '\x0b'
  | _ => none

end Atom

/-! ## Reading -/

/-- Goes past blanks and comments. -/
def skipBlanks (inComment : Bool) : List Char → List Char
  | [] => []
  | c :: cs =>
      if inComment then skipBlanks (c != '\n') cs
      else if Text.isBlank c then skipBlanks false cs
      else if c == '#' then skipBlanks true cs
      else c :: cs

def Flags.skip (f : Flags) (cs : List Char) : List Char :=
  if f.verbose then skipBlanks false cs else cs

/-- Reads this many digits. -/
def readHex (f : Flags) : Nat → List Char → Option (List Char × List Char)
  | 0, cs => some ([], cs)
  | n + 1, cs =>
      match f.skip cs with
      | c :: rest =>
          if (Text.hexDigit? c).isSome then
            (readHex f n rest).map fun (digits, rest) => (c :: digits, rest)
          else none
      | [] => none

def readCode (f : Flags) (digits : Nat) (cs : List Char) : Option (Atom × List Char) := do
  let (ds, rest) ← readHex f digits cs
  return (.literal (← Text.codePoint? ds) (digits == 2), rest)

/-- Reads what follows a backslash. -/
def readEscape (f : Flags) : List Char → Option (Atom × List Char)
  | [] => none
  | c :: rest =>
      if c == 'x' then readCode f 2 rest
      else if c == 'u' then readCode f 4 rest
      else if c == 'U' then readCode f 8 rest
      else if c == 'p' || c == 'P' then some (.property, rest)
      else if ['d', 's', 'w'].contains c then some (.kind false, rest)
      else if ['D', 'S', 'W'].contains c then some (.kind true, rest)
      else if Atom.isEscapable c then some (.literal c false, rest)
      else if c == 'A' || c == 'z' then some (.edge, rest)
      else if ['b', 'B', '<', '>'].contains c then some (.wordEdge, rest)
      else (Atom.controlCharacter? c).map fun x => (.literal x false, rest)

end Pattern
end Loopsmith
