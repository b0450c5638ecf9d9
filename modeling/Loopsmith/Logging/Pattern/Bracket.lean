import Loopsmith.Logging.Pattern.Atom

/-!
# Classes of characters

A class stands between square brackets: characters, ranges of them, named classes and
classes inside it, with operators that intersect what is to their left and right or take
one from the other.  Classes are measured by how deep they are nested.
-/

namespace Loopsmith
namespace Pattern

/-- The greatest of some numbers. -/
def greatest (ns : List Nat) : Nat :=
  ns.foldl max 0

/-- How deep several things are that stand side by side; a single one adds nothing. -/
def depthOf : List Nat → Nat
  | [] => 0
  | [n] => n
  | ns => 1 + greatest ns

/-- A class that is not closed yet. -/
structure Bracket where
  /-- The depths of its members since the last operator. -/
  members : List Nat := []
  /-- The depth of what is left of the last operator. -/
  left : Option Nat := none
  deriving DecidableEq, Repr

namespace Bracket

def depth (b : Bracket) : Nat :=
  match b.left with
  | none => depthOf b.members
  | some left => 1 + max left (depthOf b.members)

def add (b : Bracket) (depth : Nat) : Bracket :=
  { b with members := depth :: b.members }

/-- Takes an operator. -/
def divide (b : Bracket) : Bracket :=
  { left := some b.depth }

end Bracket

/-- The classes that have a name. -/
def classNames : List String :=
  ["alnum", "alpha", "ascii", "blank", "cntrl", "digit", "graph", "lower", "print", "punct",
   "space", "upper", "word", "xdigit"]

/-- Reads a named class behind its opening bracket: whether it is negated, and the
rest. -/
def readNamed : List Char → Option (Bool × List Char)
  | ':' :: rest =>
      let (negated, rest) := match rest with
        | '^' :: rest => (true, rest)
        | _ => (false, rest)
      let name := rest.takeWhile (· != ':')
      match rest.drop name.length with
      | ':' :: ']' :: after =>
          if classNames.contains (String.ofList name) then some (negated, after) else none
      | _ => none
  | _ => none

/-- Minus signs at the head of a class stand for themselves. -/
def readMinuses (f : Flags) : List Char → Nat × List Char
  | '-' :: rest =>
      let (n, rest) := readMinuses f rest
      (n + 1, rest)
  | c :: rest =>
      if f.verbose && Text.isBlank c then readMinuses f rest else (0, c :: rest)
  | [] => (0, [])

/-- Reads the head of a class behind its opening bracket: a negation, minus signs, or a
closing bracket, which there stands for itself. -/
def readOpening (f : Flags) (cs : List Char) : Option (Bracket × List Char) :=
  let (negated, rest) := match f.skip cs with
    | '^' :: rest => (true, f.skip rest)
    | rest => (false, rest)
  let (minuses, rest) := readMinuses f rest
  let (members, rest) := match minuses, f.skip rest with
    | 0, ']' :: rest => (1, rest)
    | n, rest => (n, rest)
  if (negated && !f.unicode) || (0 < members && f.unicode && f.fold) then none
  else some ({ members := List.replicate members 0 }, rest)

/-- Reads a character or an escape inside a class. -/
def readMember (f : Flags) : List Char → Option (Atom × List Char)
  | '\\' :: rest => readEscape f rest
  | c :: rest => some (.literal c false, rest)
  | [] => none

/-- Reads a member of a class, or a range of them. -/
def readRange (f : Flags) (cs : List Char) : Option (List Char) := do
  let (first, rest) ← readMember f cs
  if !first.isMember f then none
  else
    match f.skip rest with
    | '-' :: after =>
        match f.skip after with
        | [] => none
        | ']' :: _ => some ('-' :: after)
        | '-' :: _ => some ('-' :: after)
        | after =>
            let (last, rest) ← readMember f after
            match first, last with
            | .literal a _, .literal b _ => if a ≤ b && last.isMember f then some rest else none
            | _, _ => none
    | rest => some rest

/-- Reads on up to the end of the outermost of the classes that are open, innermost
first; the last argument bounds the number of steps. -/
def readClasses (f : Flags) (opened : List Bracket) (cs : List Char) :
    Nat → Option (Nat × List Char)
  | 0 => none
  | fuel + 1 =>
      let open? (rest : List Char) : Option (Nat × List Char) := do
        let (b, rest) ← readOpening f rest
        readClasses f (b :: opened) rest fuel
      match opened, f.skip cs with
      | _, [] => none
      | [], '[' :: rest => open? rest
      | [], _ => none
      | b :: outer, '[' :: rest =>
          match readNamed rest with
          | some (negated, after) =>
              if (f.unicode && f.fold) || (!f.unicode && negated) then none
              else readClasses f (b.add 0 :: outer) after fuel
          | none => open? rest
      | [b], ']' :: rest => some (1 + b.depth, rest)
      | b :: next :: outer, ']' :: rest =>
          readClasses f (next.add (1 + b.depth) :: outer) rest fuel
      | b :: outer, '&' :: '&' :: rest => readClasses f (b.divide :: outer) rest fuel
      | b :: outer, '-' :: '-' :: rest => readClasses f (b.divide :: outer) rest fuel
      | b :: outer, '~' :: '~' :: rest => readClasses f (b.divide :: outer) rest fuel
      | b :: outer, cs => do
          readClasses f (b.add 0 :: outer) (← readRange f cs) fuel

/-- Reads a class from its opening bracket: its depth, and the rest. -/
def readClass (f : Flags) (cs : List Char) : Option (Nat × List Char) :=
  readClasses f [] cs (cs.length + 1)

end Pattern
end Loopsmith
