import Loopsmith.Decimal.Read
import Loopsmith.Text.Blank

/-!
# Points in time

The time at which a library was stored, to the nanosecond.  It is written as a date,
a time of day and an offset from universal time, `2024-01-02T03:04:05+00:00`; what is
read may have any offset, and what is written always has the offset zero.

The reader is generous: a blank may stand for the `T`, blanks may stand before each
separator, and leading zeros may be missing.  A minute may have a sixtieth second,
which is kept as the fifty-ninth with more than a thousand million nanoseconds.
-/

namespace Loopsmith

structure Timestamp where
  /-- Seconds since the beginning of 1970, universal time. -/
  seconds : Int
  nanoseconds : Nat
  deriving DecidableEq, Repr

namespace Timestamp

/-! ## The calendar

Days are counted from the first of March of the year 0, so that the leap day is the
last of its year. -/

def daysPerEra : Int := 146097

/-- The number of the first day of 1970. -/
def epochDay : Int := 719468

/-- The day number of a date. -/
def dayOf (year : Int) (month day : Nat) : Int :=
  let y := if month ≤ 2 then year - 1 else year
  let era := Int.fdiv y 400
  let yearOfEra := y - era * 400
  let monthFromMarch : Int := (month + 9) % 12
  let dayOfYear := (153 * monthFromMarch + 2) / 5 + day - 1
  era * daysPerEra + yearOfEra * 365 + yearOfEra / 4 - yearOfEra / 100 + dayOfYear - epochDay

/-- The date of a day number: year, month and day. -/
def dateOf (n : Int) : Int × Nat × Nat :=
  let z := n + epochDay
  let era := Int.fdiv z daysPerEra
  let dayOfEra := z - era * daysPerEra
  let yearOfEra :=
    (dayOfEra - dayOfEra / 1460 + dayOfEra / 36524 - dayOfEra / 146096) / 365
  let dayOfYear := dayOfEra - (365 * yearOfEra + yearOfEra / 4 - yearOfEra / 100)
  let monthFromMarch := (5 * dayOfYear + 2) / 153
  let day := dayOfYear - (153 * monthFromMarch + 2) / 5 + 1
  let month := if monthFromMarch < 10 then monthFromMarch + 3 else monthFromMarch - 9
  let year := yearOfEra + era * 400
  (if month ≤ 2 then year + 1 else year, month.toNat, day.toNat)

def isLeap (year : Int) : Bool :=
  year % 4 == 0 && (year % 100 != 0 || year % 400 == 0)

def daysIn (year : Int) (month : Nat) : Nat :=
  if month = 2 then if isLeap year then 29 else 28
  else if month ∈ [4, 6, 9, 11] then 30
  else 31

/-- The years that can be told apart. -/
def firstYear : Int := -262143

def lastYear : Int := 262142

def isDate (year : Int) (month day : Nat) : Bool :=
  firstYear ≤ year && year ≤ lastYear && 1 ≤ month && month ≤ 12 && 1 ≤ day &&
    day ≤ daysIn year month

/-! ## Reading -/

/-- Reads up to `width` digits, at least one, blanks in front allowed. -/
def readNumber (width : Nat) (cs : List Char) : Option (Nat × List Char) :=
  let rest := Text.trimStart cs
  let digits := (rest.take width).takeWhile Char.isDigit
  if digits.isEmpty then none else some (Decimal.ofDigits digits, rest.drop digits.length)

/-- Reads a year: four digits at most, or any number of them after a sign. -/
def readYear (cs : List Char) : Option (Int × List Char) :=
  let rest := Text.trimStart cs
  match rest with
  | '-' :: after => (readSigned after).map fun (n, r) => (-(n : Int), r)
  | '+' :: after => (readSigned after).map fun (n, r) => ((n : Int), r)
  | _ => (readNumber 4 rest).map fun (n, r) => ((n : Int), r)
where
  readSigned (cs : List Char) : Option (Nat × List Char) :=
    let digits := cs.takeWhile Char.isDigit
    if digits.isEmpty then none else some (Decimal.ofDigits digits, cs.drop digits.length)

/-- Reads a separator, blanks in front allowed. -/
def readMark (mark : Char) (cs : List Char) : Option (List Char) :=
  match Text.trimStart cs with
  | c :: rest => if c == mark then some rest else none
  | [] => none

/-- Reads a fraction of a second, in nanoseconds; digits after the ninth do not
count. -/
def readFraction : List Char → Option (Nat × List Char)
  | '.' :: cs =>
      let digits := cs.takeWhile Char.isDigit
      if digits.isEmpty then none
      else
        let kept := digits.take 9
        some (Decimal.ofDigits kept * Nat.pow 10 (9 - kept.length), cs.drop digits.length)
  | cs => some (0, cs)

/-- Reads two digits that stand right here. -/
def readPair : List Char → Option (Nat × List Char)
  | a :: b :: rest =>
      if a.isDigit && b.isDigit then some (Decimal.ofDigits [a, b], rest) else none
  | _ => none

/-- Reads an offset from universal time, in seconds. -/
def readOffset (cs : List Char) : Option (Int × List Char) :=
  let named := (cs.take 3).map Char.toUpper
  if named == ['U', 'T', 'C'] then some (0, cs.drop 3)
  else
    match cs with
    | [] => none
    | c :: rest =>
        if c == 'Z' || c == 'z' then some (0, rest)
        else if c != '+' && c != '-' && c != '−' then none
        else do
          let (hours, rest) ← readPair rest
          let (minutes, rest) ← readPair (rest.dropWhile fun c => c == ':' || Text.isBlank c)
          if minutes ≥ 60 then none
          else
            let size : Int := 3600 * hours + 60 * minutes
            some (if c == '+' then size else -size, rest)

def secondsPerDay : Int := 86400

def read (s : String) : Option Timestamp := do
  let (year, cs) ← readYear s.toList
  let (month, cs) ← readNumber 2 (← readMark '-' cs)
  let (day, cs) ← readNumber 2 (← readMark '-' cs)
  let cs ← match cs with
    | c :: rest => if c == 'T' || c == 't' || c == ' ' then some rest else none
    | [] => none
  let (hour, cs) ← readNumber 2 cs
  let (minute, cs) ← readNumber 2 (← readMark ':' cs)
  let (second, cs) ← readNumber 2 (← readMark ':' cs)
  let (fraction, cs) ← readFraction cs
  let (offset, cs) ← readOffset (Text.trimStart cs)
  if !(Text.trimStart cs).isEmpty then none
  else if !isDate year month day then none
  else if hour ≥ 24 || minute ≥ 60 || second > 60 then none
  else if offset ≤ -secondsPerDay || secondsPerDay ≤ offset then none
  else
    let time : Int := 3600 * hour + 60 * minute + min second 59
    let seconds := dayOf year month day * secondsPerDay + time - offset
    let (year, _) := dateOf (Int.fdiv seconds secondsPerDay)
    if year < firstYear || lastYear < year then none
    else some { seconds, nanoseconds := if second == 60 then fraction + Nat.pow 10 9 else fraction }

/-! ## Writing -/

/-- A number with zeros in front. -/
def zeroPadded (width n : Nat) : String :=
  let digits := toString n
  String.ofList (List.replicate (width - digits.length) '0') ++ digits

/-- A year with four digits, and with its sign where four are not enough. -/
def yearText (year : Int) : String :=
  if year < 0 then "-" ++ zeroPadded 4 year.natAbs
  else if year > 9999 then "+" ++ zeroPadded 4 year.natAbs
  else zeroPadded 4 year.natAbs

/-- A fraction of a second in thousandths, millionths or thousand-millionths, whichever
is enough. -/
def fractionText (n : Nat) : String :=
  if n = 0 then ""
  else if n % 1000000 = 0 then "." ++ zeroPadded 3 (n / 1000000)
  else if n % 1000 = 0 then "." ++ zeroPadded 6 (n / 1000)
  else "." ++ zeroPadded 9 n

def text (t : Timestamp) : String :=
  let day := Int.fdiv t.seconds secondsPerDay
  let time := (t.seconds - day * secondsPerDay).toNat
  let (year, month, date) := dateOf day
  let leap := t.nanoseconds / Nat.pow 10 9
  String.join [yearText year, "-", zeroPadded 2 month, "-", zeroPadded 2 date, "T",
    zeroPadded 2 (time / 3600), ":", zeroPadded 2 (time / 60 % 60), ":",
    zeroPadded 2 (time % 60 + leap), fractionText (t.nanoseconds % Nat.pow 10 9), "+00:00"]

end Timestamp
end Loopsmith
