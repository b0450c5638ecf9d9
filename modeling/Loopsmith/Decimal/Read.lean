import Loopsmith.Decimal.Binary64

/-!
# Reading decimals

A numeral is an optional sign, digits with at most one point among or around
them, and an optional exponent; one digit must stand before or after the point.
`inf`, `infinity` and `nan` are numerals too, in any case of letters.  There are
no digit separators and no other bases.

Exponents may be as long as one likes.  Far outside the range of doubles the
answer is known without computing the power of ten, and `toBits` cuts the
exponent off there.
-/

namespace Loopsmith
namespace Decimal

/-- The natural number that a list of digits spells. -/
def ofDigits (cs : List Char) : Nat :=
  cs.foldl (fun n c => 10 * n + (c.toNat - 48)) 0

/-- A number `coefficient * 10 ^ exponent` in the digits it was written with. -/
structure Numeral where
  digits : List Char
  exponent : Int

/-- The digits at the head of a text, and the rest. -/
def spanDigits (cs : List Char) : List Char × List Char :=
  (cs.takeWhile Char.isDigit, cs.dropWhile Char.isDigit)

/-- Reads a sign, which may be missing: whether it is a minus, and the rest. -/
def readSign : List Char → Bool × List Char
  | '-' :: cs => (true, cs)
  | '+' :: cs => (false, cs)
  | cs => (false, cs)

/-- Reads what may follow the digits: nothing, or an exponent. -/
def readExponent : List Char → Option Int
  | [] => some 0
  | c :: cs =>
      if c == 'e' || c == 'E' then
        let (negative, rest) := readSign cs
        if rest.isEmpty || !rest.all Char.isDigit then none
        else some (if negative then -(ofDigits rest : Int) else ofDigits rest)
      else none

/-- Reads an unsigned numeral. -/
def readNumeral (cs : List Char) : Option Numeral := do
  let (whole, rest) := spanDigits cs
  let (places, rest) := match rest with
    | '.' :: after => spanDigits after
    | _ => ([], rest)
  if whole.isEmpty && places.isEmpty then none
  else
    let exponent ← readExponent rest
    some ⟨whole ++ places, exponent - places.length⟩

/-- The double nearest to a numeral, infinite if it is too large. -/
def Numeral.toBits (n : Numeral) : UInt64 :=
  let digits := n.digits.dropWhile (· == '0')
  let size : Int := n.exponent + digits.length
  if digits.isEmpty || size < -400 then 0
  else if size > 400 then Binary64.infinity
  else if n.exponent < 0 then
    Binary64.ofRatio (ofDigits digits) (Nat.pow 10 n.exponent.natAbs)
  else Binary64.ofRatio (ofDigits digits * Nat.pow 10 n.exponent.natAbs) 1

/-- The double that a text spells, as its bit pattern. -/
def read? (s : String) : Option UInt64 :=
  let (negative, cs) := readSign s.toList
  let word := String.ofList (cs.map Char.toLower)
  if word = "inf" || word = "infinity" then some (Binary64.withSign negative Binary64.infinity)
  else if word = "nan" then some (Binary64.withSign negative 0x7ff8000000000000)
  else (readNumeral cs).map fun n => Binary64.withSign negative n.toBits

end Decimal
end Loopsmith
