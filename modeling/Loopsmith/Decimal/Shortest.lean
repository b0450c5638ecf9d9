import Loopsmith.Decimal.Binary64

/-!
# Writing doubles

A double is written with the fewest digits that still read back as the same
double, and of several such decimals with the nearest one.  The decimals that
read back as `m * 2 ^ q` form an interval around it, which contains its ends when
`m` is even.  For one digit, two digits and so on the two neighbours of the value
on the grid of that many digits are tried, and the first grid with a neighbour in
the interval decides.

Numbers are written out in full whatever their size: no exponent, no point in a
whole number.
-/

namespace Loopsmith
namespace Decimal

/-- The decimal `coefficient * 10 ^ exponent`. -/
structure Scientific where
  coefficient : Nat
  exponent : Int
  deriving DecidableEq, Repr

/-- A value with the interval of decimals that read back as it, all over one
denominator. -/
structure Neighbourhood where
  low : Nat
  value : Nat
  high : Nat
  denominator : Nat
  /-- Whether the ends belong to the interval. -/
  ends : Bool

/-- The neighbourhood of `m * 2 ^ q`; `narrow` says that the double below is only
half as far away as the double above. -/
def neighbourhood (m : Nat) (q : Int) (narrow : Bool) : Neighbourhood :=
  let scale := Nat.pow 2 q.natAbs
  let (up, down) := if q < 0 then (1, scale) else (scale, 1)
  { low := (4 * m - (if narrow then 1 else 2)) * up
    value := 4 * m * up
    high := (4 * m + 2) * up
    denominator := 4 * down
    ends := m % 2 == 0 }

/-- The number of decimal digits before the point; for a value below one, minus
the number of zeros that follow the point. -/
def digitsBefore (n d : Nat) : Int :=
  if d ≤ n then (Nat.toDigits 10 (n / d)).length
  else
    let zeros := (List.range 400).find? (fun j => d ≤ n * Nat.pow 10 (j + 1))
    Int.neg (zeros.getD 0 : Nat)

/-- Whether `c * 10 ^ k` lies in the interval. -/
def Neighbourhood.contains (b : Neighbourhood) (c : Nat) (k : Int) : Bool :=
  let (num, den) :=
    if k < 0 then (c * b.denominator, Nat.pow 10 k.natAbs)
    else (c * Nat.pow 10 k.natAbs * b.denominator, 1)
  if b.ends then b.low * den ≤ num && num ≤ b.high * den
  else b.low * den < num && num < b.high * den

/-- The better of the two neighbours on the grid of multiples of `10 ^ k`, if one
of them reads back.  Of two equally near ones it is the upper. -/
def Neighbourhood.onGrid (b : Neighbourhood) (k : Int) : Option Scientific :=
  let (num, den) :=
    if k < 0 then (b.value * Nat.pow 10 k.natAbs, b.denominator)
    else (b.value, b.denominator * Nat.pow 10 k.natAbs)
  let lower := num / den
  let nearLower : Bool := 2 * (num % den) < den
  match b.contains lower k, b.contains (lower + 1) k with
  | false, false => none
  | true, false => some ⟨lower, k⟩
  | false, true => some ⟨lower + 1, k⟩
  | true, true => some ⟨if nearLower then lower else lower + 1, k⟩

/-- Drops one zero at the end, which rounding up can leave. -/
def Scientific.tidy (s : Scientific) : Scientific :=
  if s.coefficient ≠ 0 ∧ s.coefficient % 10 = 0 then ⟨s.coefficient / 10, s.exponent + 1⟩
  else s

/-- The shortest decimal that reads back as `m * 2 ^ q`.  Seventeen digits are
always enough. -/
def shortest (m : Nat) (q : Int) (narrow : Bool) : Scientific :=
  let b := neighbourhood m q narrow
  let before := digitsBefore b.value b.denominator
  let found := (List.range 17).findSome? fun n : Nat => b.onGrid (before - (n + 1 : Nat))
  (found.getD ⟨0, 0⟩).tidy

/-- All digits, with a point where one is needed. -/
def Scientific.positional (s : Scientific) : String :=
  let digits := Nat.toDigits 10 s.coefficient
  let places := s.exponent.natAbs
  if 0 ≤ s.exponent then String.ofList (digits ++ List.replicate places '0')
  else
    let padded := List.replicate (places + 1 - digits.length) '0' ++ digits
    let split := padded.length - places
    String.ofList (padded.take split ++ '.' :: padded.drop split)

/-- A double as text. -/
def show64 (bits : UInt64) : String :=
  let sign := if Binary64.isNegative bits then "-" else ""
  match Binary64.magnitude bits with
  | .nan => "NaN"
  | .infinite => sign ++ "inf"
  | .finite m q =>
      if m = 0 then sign ++ "0"
      else sign ++ (shortest m q (Binary64.narrowBelow bits)).positional

end Decimal
end Loopsmith
