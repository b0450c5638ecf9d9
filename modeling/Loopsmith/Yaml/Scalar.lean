import Loopsmith.Text.CodePoint
import Loopsmith.Text.Utf8

/-!
# YAML scalars

A scalar is a text with the way it was written, and perhaps a tag that says what it is
to be taken for.  Whoever reads a text takes any scalar.  Whoever reads a number takes
what is written plainly, so that a quoted number is a text; a block of lines is a number
only if its tag says so.
-/

namespace Loopsmith
namespace Yaml

inductive Style where
  | plain
  | single
  | double
  | literal
  | folded
  deriving DecidableEq, Repr

/-- A tag, as the bytes that it stands for. -/
abbrev Tag := List UInt8

def Tag.ofString (s : String) : Tag :=
  Text.bytesOf s

/-- What the handle of two exclamation marks stands for. -/
def Tag.standard : String := "tag:yaml.org,2002:"

def Tag.integer : Tag :=
  ofString (standard ++ "int")

structure Scalar where
  text : String
  style : Style := .plain
  tag : Option Tag := none
  deriving DecidableEq, Repr

namespace Scalar

/-- What stands where nothing is written. -/
def blank : Scalar := { text := "" }

/-- Whether a scalar may be read as a number. -/
def isBare (s : Scalar) : Bool :=
  match s.style with
  | .plain => true
  | .literal => s.tag == some Tag.integer
  | _ => false

/-- Reads the digits of a base. -/
def readDigits (base : Nat) (digits : List Char) : Option Nat := do
  let ds ← digits.mapM Text.hexDigit?
  if ds.isEmpty || ds.any (base ≤ ·) then none
  else some (ds.foldl (fun n d => base * n + d) 0)

/-- The whole number that digits spell in one of four bases.  Zeros in front of decimal
digits make a text of it. -/
def readMagnitude : List Char → Option Nat
  | '0' :: 'x' :: cs => readDigits 16 cs
  | '0' :: 'o' :: cs => readDigits 8 cs
  | '0' :: 'b' :: cs => readDigits 2 cs
  | ['0'] => some 0
  | '0' :: _ => none
  | cs => readDigits 10 cs

/-- The whole number that a text spells with or without a sign; of the negative ones
only zero is taken. -/
def readNatural : List Char → Option Nat
  | '+' :: cs => readMagnitude cs
  | '-' :: cs => (readMagnitude cs).filter (· == 0)
  | cs => readMagnitude cs

/-- The whole number that a scalar spells, if it is at most `largest`. -/
def natural? (largest : Nat) (s : Scalar) : Option Nat :=
  if s.isBare then (readNatural s.text.toList).filter (· ≤ largest) else none

end Scalar
end Yaml
end Loopsmith
