import Loopsmith.Yaml.Cursor
import Loopsmith.Yaml.Scalar

/-!
# Tags, anchors and directives

What is written in front of a scalar or a collection: an anchor to come back to it, and a
tag.  A tag is a handle, which stands for the beginning of a tag, and a suffix.  Bytes of
a tag may be written as a percent sign and two hexadecimal digits, and a zero byte ends
what counts of it.

Directives stand on lines of their own before a document.  One gives the version of the
language, the other says what a handle stands for.
-/

namespace Loopsmith
namespace Yaml

/-! ## Anchors -/

/-- The characters other than blanks that may follow an anchor. -/
def anchorEnds : List Char :=
  ['?', ':', ',', ']', '\x7d', '%', '@', '\x60']

/-- Reads the name behind the mark of an anchor or an alias. -/
def Cursor.anchor? (c : Cursor) : Option (String × Cursor) :=
  let c := c.advance 1
  let name := c.rest.takeWhile isWord
  let after := c.advance name.length
  if !name.isEmpty && (after.gapAt 0 || after.isAtAny anchorEnds) then
    some (String.ofList name, after)
  else none

/-! ## Tags -/

namespace Tag

/-- The characters of a tag apart from letters and digits. -/
def marks : List Char :=
  [';', '/', '?', ':', '@', '&', '=', '+', '$', '.', '!', '~', '*', '\'', '(', ')']

/-- Whether a character stands for itself in a tag; `whole` says that the tag is not
abbreviated by a handle. -/
def isPart (whole : Bool) (c : Char) : Bool :=
  isWord c || marks.contains c || (whole && [',', '[', ']'].contains c)

/-- How many bytes the character that starts with this byte takes. -/
def width? (b : Nat) : Option Nat :=
  if b < 0x80 then some 1
  else if b / 0x20 == 6 then some 2
  else if b / 0x10 == 14 then some 3
  else if b / 8 == 30 then some 4
  else none

/-- Reads a tag or a part of one; `due` is the number of bytes that the last character
still lacks.  Gives the bytes and the number of characters they take. -/
def read (whole : Bool) : Nat → List Char → Option (List UInt8 × Nat)
  | due, '%' :: a :: b :: rest => do
      let n ← Text.hexNumber? [a, b]
      let due ← match due with
        | 0 => (width? n).map (· - 1)
        | due + 1 => if n / 0x40 == 2 then some due else none
      (read whole due rest).map fun (bytes, length) => (UInt8.ofNat n :: bytes, length + 3)
  | due, c :: rest =>
      if c == '%' || 0 < due then none
      else if isPart whole c then
        (read whole 0 rest).map fun (bytes, length) => (UInt8.ofNat c.toNat :: bytes, length + 1)
      else some ([], 0)
  | due, [] => if 0 < due then none else some ([], 0)

/-- What counts of a tag. -/
def cut (bytes : List UInt8) : Tag :=
  bytes.takeWhile (· != 0)

/-- A tag or a part of one that is not empty. -/
def nonempty? (whole : Bool) (c : Cursor) : Option (Tag × Cursor) := do
  let (bytes, length) ← read whole 0 c.rest
  if length == 0 then none else some (cut bytes, c.advance length)

/-- The exclamation mark and the word behind it that a handle may consist of, with the
mark that closes a handle if there is one. -/
def handle (c : Cursor) : List Char :=
  let word := '!' :: (c.rest.drop 1).takeWhile isWord
  if (c.advance word.length).isAt '!' then word ++ ['!'] else word

end Tag

/-- A tag as it is written: an empty handle leaves the suffix as it is. -/
structure TagText where
  handle : String
  suffix : Tag
  deriving DecidableEq, Repr

namespace TagText

/-- Reads a tag from its exclamation mark. -/
def read (c : Cursor) : Option (TagText × Cursor) :=
  if c.rest[1]? == some '<' then do
    let (suffix, c) ← Tag.nonempty? true (c.advance 2)
    if c.isAt '>' then some (⟨"", suffix⟩, c.advance 1) else none
  else
    let handle := Tag.handle c
    if handle.length > 1 && handle.getLast? == some '!' then do
      let (suffix, c) ← Tag.nonempty? false (c.advance handle.length)
      return (⟨String.ofList handle, suffix⟩, c)
    else do
      let (bytes, length) ← Tag.read false 0 (c.rest.drop 1)
      let suffix := Tag.cut bytes
      let c := c.advance (1 + length)
      return (if suffix.isEmpty then ⟨"", Tag.ofString "!"⟩ else ⟨"!", suffix⟩, c)

/-- What a tag stands for. -/
def resolve? (handles : List (String × Tag)) (t : TagText) : Option Tag :=
  if t.handle == "" then some t.suffix
  else (handles.lookup t.handle).map (· ++ t.suffix)

end TagText

/-- Reads a tag; a blank has to follow, or a comma between brackets. -/
def Cursor.tag? (c : Cursor) (flow : Bool) : Option (TagText × Cursor) := do
  let (t, c) ← TagText.read c
  if c.gapAt 0 || (flow && c.isAt ',') then some (t, c) else none

/-! ## Directives -/

inductive Directive where
  | version (major minor : Nat)
  | handle (name : String) (stands : Tag)
  deriving DecidableEq, Repr

namespace Directive

/-- Reads a number of at most nine digits. -/
def readNumber (c : Cursor) : Option (Nat × Cursor) :=
  let digits := c.rest.takeWhile Char.isDigit
  if digits.isEmpty || 9 < digits.length then none
  else some (digits.foldl (fun n d => 10 * n + (d.toNat - 48)) 0, c.advance digits.length)

def readVersion (c : Cursor) : Option (Directive × Cursor) := do
  let (major, c) ← readNumber (c.skipWhile isBlank)
  if !c.isAt '.' then none
  else
    let (minor, c) ← readNumber (c.advance 1)
    return (.version major minor, c)

def readHandle (c : Cursor) : Option (Directive × Cursor) := do
  let c := c.skipWhile isBlank
  if !c.isAt '!' then none
  else
    let name := Tag.handle c
    let c := c.advance name.length
    if name != ['!'] && name.getLast? != some '!' then none
    else if !c.rest.head?.any isBlank then none
    else
      let (stands, c) ← Tag.nonempty? true (c.skipWhile isBlank)
      if c.gapAt 0 then some (.handle (String.ofList name) stands, c) else none

end Directive

/-- Reads a directive from its percent sign to the end of its line. -/
def Cursor.directive? (c : Cursor) : Option (Directive × Cursor) := do
  let c := c.advance 1
  let name := c.rest.takeWhile isWord
  let c := c.advance name.length
  if !c.gapAt 0 then none
  else
    let (d, c) ← match String.ofList name with
      | "YAML" => Directive.readVersion c
      | "TAG" => Directive.readHandle c
      | _ => none
    return (d, ← c.endLine?)

end Yaml
end Loopsmith
