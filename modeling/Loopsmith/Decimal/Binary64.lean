/-!
# Doubles as integers

A finite double is `m * 2 ^ q` for a natural number `m < 2 ^ 53`, and its bit
pattern spells `m` and `q` out.  Reading and writing decimals is exact integer
arithmetic on these, so a double is handled here as its bit pattern: nothing
depends on how floating-point operations round.

`ofRatio` gives the double nearest to a quotient of natural numbers, a tie going
to the even neighbour.  With it a decimal is read without losing anything on the
way, however long it is.
-/

namespace Loopsmith
namespace Binary64

/-- What a bit pattern stands for, apart from its sign. -/
inductive Magnitude where
  | finite (m : Nat) (q : Int)
  | infinite
  | nan
  deriving DecidableEq, Repr

/-- The 52 stored bits of the significand. -/
def fraction (bits : UInt64) : Nat :=
  bits.toNat % Nat.pow 2 52

/-- The 11 bits of the biased exponent. -/
def biased (bits : UInt64) : Nat :=
  bits.toNat / Nat.pow 2 52 % Nat.pow 2 11

def isNegative (bits : UInt64) : Bool :=
  bits.toNat / Nat.pow 2 63 == 1

def magnitude (bits : UInt64) : Magnitude :=
  let f := fraction bits
  let e := biased bits
  if e = 2047 then (if f = 0 then .infinite else .nan)
  else if e = 0 then .finite f (-1074)
  else .finite (Nat.pow 2 52 + f) (e - 1075)

/-- Whether the next double towards zero is only half as far away as the next
one the other way: it is at the powers of two, the smallest apart. -/
def narrowBelow (bits : UInt64) : Bool :=
  fraction bits == 0 && 1 < biased bits

def infinity : UInt64 := 0x7ff0000000000000

def withSign (negative : Bool) (bits : UInt64) : UInt64 :=
  if negative then bits ||| 0x8000000000000000 else bits

/-- The quotient rounded to the nearest natural number, a tie to the even one. -/
def roundDiv (n d : Nat) : Nat :=
  let quotient := n / d
  let twice := 2 * (n % d)
  if twice < d || (twice == d && quotient % 2 == 0) then quotient else quotient + 1

/-- The quotient of `n` and `d * 2 ^ q`, rounded. -/
def scaled (n d : Nat) (q : Int) : Nat :=
  if q < 0 then roundDiv (n * Nat.pow 2 q.natAbs) d else roundDiv n (d * Nat.pow 2 q.natAbs)

/-- The pattern of `m * 2 ^ q`, where `m` has 53 bits or `q` is smallest; `m` may
also be `2 ^ 53`, to which rounding can lead. -/
def assemble (m : Nat) (q : Int) : UInt64 :=
  let (m, q) := if m = Nat.pow 2 53 then (Nat.pow 2 52, q + 1) else (m, q)
  if q > 971 then infinity
  else if m < Nat.pow 2 52 then UInt64.ofNat m
  else UInt64.ofNat ((q + 1075).toNat * Nat.pow 2 52 + (m - Nat.pow 2 52))

/-- The double nearest to `n / d`. -/
def ofRatio (n d : Nat) : UInt64 :=
  if n = 0 then 0
  else
    -- With this exponent the quotient lies between `2 ^ 52` and `2 ^ 54`.
    let first : Int := (n.log2 : Int) - (d.log2 : Int) - 53
    let exceeds : Bool :=
      if first < 0 then d * Nat.pow 2 53 ≤ n * Nat.pow 2 first.natAbs
      else d * Nat.pow 2 first.natAbs * Nat.pow 2 53 ≤ n
    let exact := if exceeds then first + 1 else first
    let q := max exact (-1074)
    if q > 971 then infinity else assemble (scaled n d q) q

end Binary64
end Loopsmith
