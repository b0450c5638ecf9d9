/-!
# Characters by number

Quoted texts may name a character by the hexadecimal digits of its code point.
-/

namespace Loopsmith
namespace Text

def hexDigit? (c : Char) : Option Nat :=
  if c.isDigit then some (c.toNat - 48)
  else if 'a' ≤ c && c ≤ 'f' then some (c.toNat - 87)
  else if 'A' ≤ c && c ≤ 'F' then some (c.toNat - 55)
  else none

/-- The number that hexadecimal digits spell. -/
def hexNumber? (digits : List Char) : Option Nat :=
  (digits.mapM hexDigit?).map fun ds => ds.foldl (fun n d => 16 * n + d) 0

/-- The character with the code point that the digits spell. -/
def codePoint? (digits : List Char) : Option Char := do
  let n ← hexNumber? digits
  if h : n.isValidChar then some (Char.ofNatAux n h) else none

end Text
end Loopsmith
