import Loopsmith.Toml.Scalar

/-!
# Flat TOML documents

A document that assigns scalars to keys, one to a line, and nothing else: no
tables, no dotted keys, no arrays or dates.  A reader whose keys all take scalars
refuses a document with anything more in it, so it can use this one.

A key may not be assigned twice.
-/

namespace Loopsmith
namespace Toml

/-- Reads the end of a line: blanks, perhaps a comment, and the break or the end
of the text. -/
def readLineEnd? (cs : List Char) : Option (List Char) :=
  let rest := match cs.dropWhile isBlank with
    | '#' :: comment => comment.dropWhile isPrintable
    | other => other
  match rest with
  | [] => some []
  | _ => readNewline? rest

def isBareKeyChar (c : Char) : Bool :=
  c.isAlphanum || c == '_' || c == '-'

/-- Reads a key, bare or quoted, on one line. -/
def readKey? (cs : List Char) : Option (List Char × List Char) :=
  match cs with
  | '"' :: rest => readBasic cs.length rest
  | '\'' :: rest => readLiteral rest
  | _ =>
      let key := cs.takeWhile isBareKeyChar
      if key.isEmpty then none else some (key, cs.dropWhile isBareKeyChar)

/-- Reads a key, an equals sign and a scalar. -/
def readAssignment? (cs : List Char) : Option ((String × Scalar) × List Char) := do
  let (key, rest) ← readKey? cs
  match rest.dropWhile isBlank with
  | '=' :: rest =>
      let (value, rest) ← readScalar? (rest.dropWhile isBlank)
      some ((String.ofList key, value), rest)
  | _ => none

/-- Reads line after line; the first argument bounds their number. -/
def readLines : Nat → List Char → Option (List (String × Scalar))
  | _, [] => some []
  | 0, _ :: _ => none
  | fuel + 1, c :: cs =>
      match readLineEnd? (c :: cs) with
      | some rest => readLines fuel rest
      | none => do
          let (entry, rest) ← readAssignment? ((c :: cs).dropWhile isBlank)
          let entries ← readLines fuel (← readLineEnd? rest)
          if (entries.lookup entry.1).isSome then none else some (entry :: entries)

/-- The assignments of a flat document, in order.  A byte order mark in front is
skipped. -/
def parse? (text : String) : Option (List (String × Scalar)) :=
  let cs := match text.toList with
    | '\uFEFF' :: rest => rest
    | other => other
  readLines (cs.length + 1) cs

end Toml
end Loopsmith
