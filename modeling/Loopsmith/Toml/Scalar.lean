import Loopsmith.Decimal.Read
import Loopsmith.Text.CodePoint

/-!
# TOML scalars

Strings in their four spellings, integers, floats and booleans.  Integers have 64
bits and may be written in four bases; digits may be grouped by single
underscores.  A float that is too large is an error, while the words for infinity
and for no number are not.

Readers take the characters at the head of a text and return the rest.
-/

namespace Loopsmith
namespace Toml

inductive Scalar where
  | string (s : String)
  | integer (i : Int)
  | float (bits : UInt64)
  | boolean (b : Bool)
  deriving DecidableEq, Repr

/-- A character that may stand for itself: a tab, or none of the control
characters. -/
def isPrintable (c : Char) : Bool :=
  c == '\t' || (0x20 ≤ c.toNat && c.toNat != 0x7F)

def isBlank (c : Char) : Bool :=
  c == ' ' || c == '\t'

/-! ## Strings -/

/-- The character that a backslash and a letter stand for. -/
def simpleEscape : Char → Option Char
  | 'b' => some '\x08'
  | 't' => some '\t'
  | 'n' => some '\n'
  | 'f' => some '\x0c'
  | 'r' => some '\r'
  | '"' => some '"'
  | '\\' => some '\\'
  | _ => none

/-- Reads what follows a backslash. -/
def readEscape : List Char → Option (Char × List Char)
  | 'u' :: cs =>
      if cs.length < 4 then none else (Text.codePoint? (cs.take 4)).map fun c => (c, cs.drop 4)
  | 'U' :: cs =>
      if cs.length < 8 then none else (Text.codePoint? (cs.take 8)).map fun c => (c, cs.drop 8)
  | c :: cs => (simpleEscape c).map fun d => (d, cs)
  | [] => none

/-- Reads a line break, of either kind. -/
def readNewline? : List Char → Option (List Char)
  | '\n' :: cs => some cs
  | '\r' :: '\n' :: cs => some cs
  | _ => none

/-- Reads a quoted string up to its closing quote; the first argument bounds the
number of characters. -/
def readBasic : Nat → List Char → Option (List Char × List Char)
  | 0, _ => none
  | _ + 1, [] => none
  | fuel + 1, c :: cs =>
      if c == '"' then some ([], cs)
      else if c == '\\' then do
        let (d, rest) ← readEscape cs
        let (body, rest) ← readBasic fuel rest
        some (d :: body, rest)
      else if isPrintable c then do
        let (body, rest) ← readBasic fuel cs
        some (c :: body, rest)
      else none

/-- Reads a literal string up to its closing apostrophe. -/
def readLiteral : List Char → Option (List Char × List Char)
  | [] => none
  | c :: cs =>
      if c == '\'' then some ([], cs)
      else if isPrintable c then (readLiteral cs).map fun (body, rest) => (c :: body, rest)
      else none

/-- Skips blanks and line breaks. -/
def skipLines : Nat → List Char → List Char
  | 0, cs => cs
  | fuel + 1, cs =>
      match cs with
      | [] => []
      | c :: rest =>
          if isBlank c then skipLines fuel rest
          else
            match readNewline? cs with
            | some after => skipLines fuel after
            | none => cs

/-- After a backslash: the text after it, if only blanks stand before the end of
the line. -/
def readContinuation? (cs : List Char) : Option (List Char) :=
  (readNewline? (cs.dropWhile isBlank)).map fun rest => skipLines rest.length rest

/-- Reads a string over several lines up to three closing quotes `q`; one or two
quotes before those belong to the string. -/
def readMultiline (q : Char) (escapes : Bool) : Nat → List Char → Option (List Char × List Char)
  | 0, _ => none
  | _ + 1, [] => none
  | fuel + 1, c :: cs =>
      if c == q then
        let run := 1 + (cs.takeWhile (· == q)).length
        if run < 3 then do
          let (body, rest) ← readMultiline q escapes fuel (cs.drop (run - 1))
          some (List.replicate run q ++ body, rest)
        else
          let kept := min (run - 3) 2
          some (List.replicate kept q, cs.drop (kept + 2))
      else if escapes && c == '\\' then
        match readContinuation? cs with
        | some rest => readMultiline q escapes fuel rest
        | none => do
            let (d, rest) ← readEscape cs
            let (body, rest) ← readMultiline q escapes fuel rest
            some (d :: body, rest)
      else
        match readNewline? (c :: cs) with
        | some rest => (readMultiline q escapes fuel rest).map fun (body, r) => ('\n' :: body, r)
        | none =>
            if isPrintable c then
              (readMultiline q escapes fuel cs).map fun (body, r) => (c :: body, r)
            else none

/-- Skips the line break that may follow the opening quotes. -/
def skipFirstNewline (cs : List Char) : List Char :=
  (readNewline? cs).getD cs

/-- Reads a string of any kind. -/
def readString? (cs : List Char) : Option (List Char × List Char) :=
  match cs with
  | '"' :: '"' :: '"' :: rest => readMultiline '"' true cs.length (skipFirstNewline rest)
  | '\'' :: '\'' :: '\'' :: rest => readMultiline '\'' false cs.length (skipFirstNewline rest)
  | '"' :: rest => readBasic cs.length rest
  | '\'' :: rest => readLiteral rest
  | _ => none

/-! ## Numbers and booleans -/

/-- Drops the underscores between digits; elsewhere they are not allowed. -/
def ungroup (isDigit : Char → Bool) (cs : List Char) : Option (List Char) :=
  let rec go : Bool → List Char → Option (List Char)
    | afterDigit, [] => if afterDigit then some [] else none
    | afterDigit, c :: rest =>
        if isDigit c then (go true rest).map (c :: ·)
        else if c == '_' && afterDigit then go false rest
        else none
  go false cs

/-- A decimal integer without needless zeros in front. -/
def readWhole (cs : List Char) : Option (List Char) :=
  (ungroup Char.isDigit cs).filter fun ds => ds.length == 1 || ds.head? != some '0'

/-- The number that digits of some base spell. -/
def readBase (base : Nat) (isDigit : Char → Bool) (cs : List Char) : Option Nat := do
  let ds ← (← ungroup isDigit cs).mapM Text.hexDigit?
  some (ds.foldl (fun n d => base * n + d) 0)

def inRange (i : Int) : Bool :=
  Int64.minValue.toInt ≤ i && i ≤ Int64.maxValue.toInt

def readInteger (token : List Char) : Option Int :=
  let value : Option Int :=
    match token with
    | '0' :: 'x' :: cs => (readBase 16 (fun c => (Text.hexDigit? c).isSome) cs).map Int.ofNat
    | '0' :: 'o' :: cs => (readBase 8 (fun c => '0' ≤ c && c ≤ '7') cs).map Int.ofNat
    | '0' :: 'b' :: cs => (readBase 2 (fun c => c == '0' || c == '1') cs).map Int.ofNat
    | _ =>
        let (negative, cs) := Decimal.readSign token
        (readWhole cs).map fun ds =>
          if negative then -(Decimal.ofDigits ds : Int) else Decimal.ofDigits ds
  value.filter inRange

/-- The exponent part, from its letter on. -/
def readExponentPart (cs : List Char) : Option (List Char) :=
  match cs with
  | c :: rest =>
      if c == 'e' || c == 'E' then
        let sign := rest.takeWhile fun s => s == '+' || s == '-'
        if sign.length ≤ 1 then
          (ungroup Char.isDigit (rest.drop sign.length)).map fun ds => 'e' :: sign ++ ds
        else none
      else none
  | [] => some []

/-- A float with a point, an exponent or both. -/
def readFloat (token : List Char) : Option UInt64 := do
  let (negative, cs) := Decimal.readSign token
  let isExponentMark (c : Char) : Bool := c == 'e' || c == 'E'
  if cs == ['i', 'n', 'f'] then some (Binary64.withSign negative Binary64.infinity)
  else if cs == ['n', 'a', 'n'] then some (Binary64.withSign negative 0x7ff8000000000000)
  else
    let number := cs.takeWhile fun c => !isExponentMark c
    let tail ← readExponentPart (cs.dropWhile fun c => !isExponentMark c)
    let whole ← readWhole (number.takeWhile (· != '.'))
    let places ← match number.dropWhile (· != '.') with
      | [] => if tail.isEmpty then none else some []
      | _ :: ds => (ungroup Char.isDigit ds).map ('.' :: ·)
    let bits ← Decimal.read? (String.ofList (whole ++ places ++ tail))
    if bits == Binary64.infinity && !negative then none
    else some (Binary64.withSign negative bits)

/-- A character that numbers, booleans and dates are made of. -/
def isTokenChar (c : Char) : Bool :=
  c.isAlphanum || c == '+' || c == '-' || c == '_' || c == '.'

def readToken (token : List Char) : Option Scalar :=
  if token == ['t', 'r', 'u', 'e'] then some (.boolean true)
  else if token == ['f', 'a', 'l', 's', 'e'] then some (.boolean false)
  else
    match readInteger token with
    | some i => some (.integer i)
    | none => (readFloat token).map .float

/-- Reads a scalar and returns the text after it. -/
def readScalar? (cs : List Char) : Option (Scalar × List Char) :=
  match readString? cs with
  | some (s, rest) => some (.string (String.ofList s), rest)
  | none =>
      (readToken (cs.takeWhile isTokenChar)).map fun v => (v, cs.dropWhile isTokenChar)

end Toml
end Loopsmith
