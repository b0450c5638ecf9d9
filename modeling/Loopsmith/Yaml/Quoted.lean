import Loopsmith.Text.CodePoint
import Loopsmith.Yaml.Folding

/-!
# Quoted scalars

Between apostrophes two of them stand for one, and nothing else is special.  Between
double quotes a backslash starts an escape; one at the end of a line joins the next line
without a space.  No document may start or end inside the quotes.

Texts are written between double quotes, with everything escaped but the visible
characters of ASCII.  So a written text is a single word.
-/

namespace Loopsmith
namespace Yaml
namespace Quoted

/-- The character that a backslash and this one stand for. -/
def simpleEscape : Char → Option Char
  | '0' => some '\x00'
  | 'a' => some '\x07'
  | 'b' => some '\x08'
  | 't' => some '\t'
  | '\t' => some '\t'
  | 'n' => some '\n'
  | 'v' => some '\x0b'
  | 'f' => some '\x0c'
  | 'r' => some '\r'
  | 'e' => some '\x1b'
  | ' ' => some ' '
  | '"' => some '"'
  | '/' => some '/'
  | '\\' => some '\\'
  | 'N' => some '\u0085'
  | '_' => some '\u00a0'
  | 'L' => some '\u2028'
  | 'P' => some '\u2029'
  | _ => none

/-- A word between quotes: what it reads as, and how many characters it takes. -/
structure Word where
  text : List Char := []
  length : Nat := 0
  deriving DecidableEq, Repr

def Word.cons (x : Char) (n : Nat) (w : Word) : Word :=
  ⟨x :: w.text, n + w.length⟩

/-- The word that starts here between apostrophes. -/
def singleWord : List Char → Word
  | '\'' :: '\'' :: rest => (singleWord rest).cons '\'' 2
  | x :: rest => if x == '\'' || isGap x then {} else (singleWord rest).cons x 1
  | [] => {}

/-- The word that starts here between double quotes; it ends before a backslash at the
end of a line. -/
def doubleWord : List Char → Option Word
  | '\\' :: 'x' :: a :: b :: rest => do
      let x ← Text.codePoint? [a, b]
      (doubleWord rest).map (·.cons x 4)
  | '\\' :: 'u' :: a :: b :: c :: d :: rest => do
      let x ← Text.codePoint? [a, b, c, d]
      (doubleWord rest).map (·.cons x 6)
  | '\\' :: 'U' :: a :: b :: c :: d :: e :: f :: g :: h :: rest => do
      let x ← Text.codePoint? [a, b, c, d, e, f, g, h]
      (doubleWord rest).map (·.cons x 10)
  | '\\' :: x :: rest =>
      if isBreak x then some {}
      else do
        let x ← simpleEscape x
        (doubleWord rest).map (·.cons x 2)
  | x :: rest =>
      if x == '"' || isGap x then some {} else (doubleWord rest).map (·.cons x 1)
  | [] => some {}

def word (single : Bool) (cs : List Char) : Option Word :=
  if single then some (singleWord cs) else doubleWord cs

/-- Whether a backslash and the end of a line come next. -/
def atJoin (single : Bool) (c : Cursor) : Bool :=
  !single && c.isAt '\\' && c.rest.tail.head?.any isBreak

/-- Reads on after some words and gaps, the last one first, up to the closing quote; the
last argument bounds the number of words. -/
def read (single : Bool) (parts : List (List Char)) (c : Cursor) :
    Nat → Option (String × Cursor)
  | 0 => none
  | fuel + 1 =>
      if c.atBoundary then none
      else do
        let w ← word single c.rest
        let parts := w.text :: parts
        let c := c.advance w.length
        let joined := atJoin single c
        let c := if joined then (c.advance 1).takeBreak.2 else c
        if c.isAt (if single then '\'' else '"') then
          some (String.ofList parts.reverse.flatten, c.advance 1)
        else if c.rest.isEmpty then none
        else
          let (gap, c) ← c.gap? 0 { broken := joined }
          read single (gap.text :: parts) c fuel

/-! ## Writing -/

/-- The eight hexadecimal digits of a code point. -/
def digits (c : Char) : List Char :=
  [7, 6, 5, 4, 3, 2, 1, 0].map fun i => Nat.digitChar (c.toNat / Nat.pow 16 i % 16)

/-- Whether a character stands for itself in a written text. -/
def isVisible (c : Char) : Bool :=
  '!' ≤ c && c ≤ '~' && c != '"' && c != '\\'

/-- How a character is written. -/
def escape (c : Char) : List Char :=
  if isVisible c then [c] else '\\' :: 'U' :: digits c

/-- A text between double quotes. -/
def write (s : String) : String :=
  String.ofList ('"' :: s.toList.flatMap escape ++ ['"'])

end Quoted

/-- Reads a quoted scalar of at most `limit` characters from its opening quote. -/
def Cursor.quoted? (c : Cursor) (limit : Nat) (single : Bool) : Option (String × Cursor) :=
  Quoted.read single [] (c.advance 1) (limit + 1)

end Yaml
end Loopsmith
