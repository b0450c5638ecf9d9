import Loopsmith.Logging.Pattern.Bracket
import Loopsmith.Text.Letter

/-!
# Patterns

Whether a text is a pattern: atoms and classes one after the other, repeated by `?`, `*`
or `+`, with bars between alternatives and parentheses around groups.  A group may be
named, and may set flags; flags set without a group hold to the end of the group they
stand in.  Nothing may be nested more than 250 deep.

A number of repetitions stands in braces.  The text of a pattern ends at the first
closing brace, so an opening one is never closed and spoils the pattern.
-/

namespace Loopsmith
namespace Pattern

/-- The deepest nesting. -/
def deepest : Nat := 250

/-! ## Groups -/

/-- A group that is not closed yet. -/
structure Group where
  /-- The depths of the items since the last bar, the last one first; flags are an item
  without a depth. -/
  items : List (Option Nat) := []
  /-- The depths of the alternatives before that. -/
  branches : List Nat := []
  deriving DecidableEq, Repr

namespace Group

def branchDepth (g : Group) : Nat :=
  depthOf (g.items.map (·.getD 0))

def depth (g : Group) : Nat :=
  depthOf (g.branchDepth :: g.branches)

def add (g : Group) (item : Option Nat) : Group :=
  { g with items := item :: g.items }

def nextBranch (g : Group) : Group :=
  { items := [], branches := g.branchDepth :: g.branches }

/-- Repeats the last item, if there is one that can be repeated. -/
def repeatLast? (g : Group) : Option Group :=
  match g.items with
  | some d :: items => some { g with items := some (d + 1) :: items }
  | _ => none

end Group

/-! ## Flags and names -/

/-- The letters of flags. -/
def flagLetters : List Char :=
  ['i', 'm', 's', 'U', 'u', 'R', 'x']

def Flags.set (f : Flags) (letter : Char) (on : Bool) : Flags :=
  if letter == 'i' then { f with fold := on }
  else if letter == 'u' then { f with unicode := on }
  else if letter == 'x' then { f with verbose := on }
  else f

/-- The flags as the letters change them; those behind a minus sign are switched off. -/
def Flags.setAll (f : Flags) (on : Bool) : List Char → Flags
  | [] => f
  | c :: cs => if c == '-' then f.setAll false cs else (f.set c on).setAll on cs

/-- Letters of flags, none of them twice, with at most one minus sign, and that not at the
end. -/
def isFlagList (cs : List Char) : Bool :=
  cs.all (fun c => c == '-' || flagLetters.contains c) && cs.getLast? != some '-' &&
    cs.eraseDups.length == cs.length

/-- Reads a name up to its closing bracket. -/
def readGroupName (cs : List Char) : Option (String × List Char) :=
  let name := cs.takeWhile (· != '>')
  let isFirst (c : Char) : Bool := c == '_' || Text.isLetter c
  let isLater (c : Char) : Bool := ['_', '.', '[', ']'].contains c || Text.isLetterOrDigit c
  match name, cs.drop name.length with
  | c :: later, _ :: rest =>
      if isFirst c && later.all isLater then some (String.ofList name, rest) else none
  | _, _ => none

/-! ## Reading a pattern -/

/-- How far a pattern has been read. -/
structure Reading where
  rest : List Char
  flags : Flags := {}
  group : Group := {}
  /-- The groups around it, innermost first, with their flags. -/
  outer : List (Group × Flags) := []
  names : List String := []
  deriving DecidableEq, Repr

namespace Reading

/-- Opens a group with these flags. -/
def openGroup (r : Reading) (flags : Flags) (rest : List Char) : Reading :=
  { r with rest, flags, group := {}, outer := (r.group, r.flags) :: r.outer }

def openNamed? (r : Reading) (cs : List Char) : Option Reading := do
  let (name, rest) ← readGroupName cs
  if r.names.contains name then none
  else some { r.openGroup r.flags rest with names := name :: r.names }

/-- Reads flags behind a question mark, which a colon makes those of a group. -/
def readFlags? (r : Reading) (cs : List Char) : Option Reading :=
  let letters := cs.takeWhile fun c => c != ':' && c != ')'
  let flags := r.flags.setAll true letters
  if !isFlagList letters then none
  else
    match cs.drop letters.length with
    | ':' :: rest => some (r.openGroup flags rest)
    | ')' :: rest =>
        if letters.isEmpty then none else some { r with rest, flags, group := r.group.add none }
    | _ => none

/-- Reads what follows an opening parenthesis.  Looking ahead or behind is not possible. -/
def opening? (r : Reading) (cs : List Char) : Option Reading :=
  match r.flags.skip cs with
  | '?' :: 'P' :: '<' :: rest => r.openNamed? rest
  | '?' :: '<' :: rest => r.openNamed? rest
  | '?' :: rest => r.readFlags? rest
  | rest => some (r.openGroup r.flags rest)

def closing? (r : Reading) (rest : List Char) : Option Reading :=
  match r.outer with
  | [] => none
  | (group, flags) :: outer =>
      some { r with rest, flags, outer, group := group.add (some (r.group.depth + 1)) }

/-- Reads a mark of repetition, and the question mark that may follow it. -/
def repetition? (r : Reading) (rest : List Char) : Option Reading := do
  let group ← r.group.repeatLast?
  let rest := if rest.head? == some '?' then rest.tail else rest
  return { r with rest, group }

def atom? (r : Reading) (a : Atom) (rest : List Char) : Option Reading :=
  if a.isKnown r.flags then some { r with rest, group := r.group.add (some 0) } else none

/-- Reads what starts with `c`. -/
def step? (r : Reading) (c : Char) (rest : List Char) : Option Reading :=
  if c == '(' then r.opening? rest
  else if c == ')' then r.closing? rest
  else if c == '|' then some { r with rest, group := r.group.nextBranch }
  else if c == '[' then do
    let (depth, rest) ← readClass r.flags (c :: rest)
    return { r with rest, group := r.group.add (some depth) }
  else if c == '?' || c == '*' || c == '+' then r.repetition? rest
  else if c == '\x7b' then none
  else if c == '\\' then do
    let (a, rest) ← readEscape r.flags rest
    r.atom? a rest
  else if c == '.' then r.atom? .anyChar rest
  else if c == '^' || c == '$' then r.atom? .edge rest
  else r.atom? (.literal c false) rest

/-- Reads on to the end; the last argument bounds the number of steps. -/
def isComplete (r : Reading) : Nat → Bool
  | 0 => false
  | fuel + 1 =>
      match r.flags.skip r.rest with
      | [] => r.outer.isEmpty && r.group.depth ≤ deepest
      | c :: rest =>
          match r.step? c rest with
          | none => false
          | some r => r.isComplete fuel

end Reading

/-- Whether a text is a pattern. -/
def isPattern (cs : List Char) : Bool :=
  Reading.isComplete { rest := cs } (cs.length + 1)

end Pattern
end Loopsmith
