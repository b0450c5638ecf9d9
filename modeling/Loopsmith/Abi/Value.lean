import Loopsmith.Decimal.Shortest

/-!
# Argument packs

A specialized body is called with the current iteration and a pack of tagged
values.  A value is an integer, a double or an address; the tag says which, and
a caller in another language may write a tag that stands for none of them.  A
double is kept as its bit pattern, so no value of it is lost on the way.
-/

namespace Loopsmith

inductive Value where
  | int (i : Int64)
  | float (bits : UInt64)
  | pointer (address : UInt64)
  | unknown (tag : UInt32)
  deriving DecidableEq, Repr

namespace Value

/-- Reads a tag and the eight bytes beside it. -/
def ofRaw (tag : UInt32) (payload : UInt64) : Value :=
  match tag.toNat with
  | 1 => int payload.toInt64
  | 2 => float payload
  | 3 => pointer payload
  | _ => unknown tag

def tag? : Value → Option Nat
  | int _ => some 1
  | float _ => some 2
  | pointer _ => some 3
  | unknown _ => none

def int? : Value → Option Int64
  | int i => some i
  | _ => none

def float? : Value → Option UInt64
  | float bits => some bits
  | _ => none

def pointer? : Value → Option UInt64
  | pointer address => some address
  | _ => none

def text : Value → String
  | int i => s!"Int({i.toInt})"
  | float bits => s!"Float({Decimal.show64 bits})"
  | pointer address => s!"Pointer(0x{String.ofList (Nat.toDigits 16 address.toNat)})"
  | unknown tag => s!"Unknown(tag = {tag.toNat})"

end Value

/-- The version of the calling convention. -/
def abiVersion : Nat := 1

/-- The symbol that every specialized library exports. -/
def entrySymbol : String := "function"

/-- What a body receives beside the iteration. -/
structure Pack where
  version : Nat
  values : List Value
  deriving DecidableEq, Repr

namespace Pack

def ofValues (values : List Value) : Pack :=
  ⟨abiVersion, values⟩

def empty : Pack :=
  ofValues []

def size (p : Pack) : Nat :=
  p.values.length

/-- Whether the pack hands out no array at all. -/
def isNull (p : Pack) : Bool :=
  p.values.isEmpty

/-- The values as text. -/
def text (p : Pack) : String :=
  "[" ++ String.intercalate ", " (p.values.map Value.text) ++ "]"

end Pack
end Loopsmith
