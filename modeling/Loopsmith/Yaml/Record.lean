import Loopsmith.Yaml.Event

/-!
# YAML records

A document that is one mapping from texts to whatever they stand for.  Its entries are
given in order, with a scalar as it is and anything with a structure of its own as such.
The same key may occur twice; what to make of that is up to the reader.

An alias stands for what has its anchor.  Anchors are numbered by how many names there
are before them, and an alias is known by the number that its name has at that place, so
when a name has been used again a later anchor may have the number of an earlier one.
Then the alias stands for the last thing with that number.
-/

namespace Loopsmith
namespace Yaml

/-- What stands behind a key. -/
inductive Value where
  | scalar (s : Scalar)
  | nested
  deriving DecidableEq, Repr

/-- The anchors of a document. -/
structure Anchors where
  /-- The numbers that the names have. -/
  numbers : List (String × Nat) := []
  /-- What has a number, the last one first. -/
  targets : List (Nat × Value) := []
  deriving DecidableEq, Repr

def Anchors.add (a : Anchors) (name : String) (v : Value) : Anchors :=
  let n := a.numbers.length
  { numbers := (name, n) :: a.numbers.filter (·.1 != name), targets := (n, v) :: a.targets }

/-- An event without its anchor, and with the number of what an alias stands for. -/
inductive Item where
  | value (s : Scalar)
  | opens (kind : Collection)
  | closes
  | alias (number : Nat)
  deriving DecidableEq, Repr

/-- Numbers the anchors; an alias of a name that has none is refused. -/
def Anchors.number? (a : Anchors) : List Event → Option (List Item × Anchors)
  | [] => some ([], a)
  | e :: es => do
      let (item, a) ← match e with
        | .scalar anchor s => some (Item.value s, note a anchor (.scalar s))
        | .opens anchor kind => some (.opens kind, note a anchor .nested)
        | .closes => some (.closes, a)
        | .alias name => (a.numbers.lookup name).map fun n => (.alias n, a)
      let (items, a) ← number? a es
      return (item :: items, a)
where
  note (a : Anchors) (anchor : Option String) (v : Value) : Anchors :=
    match anchor with
    | none => a
    | some name => a.add name v

/-- What stands at the head of some items. -/
def Anchors.value? (a : Anchors) : Item → Option Value
  | .value s => some (.scalar s)
  | .opens _ => some .nested
  | .alias n => a.targets.lookup n
  | .closes => none

/-- The items behind the node that starts here, `depth` collections deep. -/
def Item.skip (depth : Nat) : List Item → List Item
  | [] => []
  | i :: is =>
      let depth := match i with
        | .opens _ => depth + 1
        | .closes => depth - 1
        | _ => depth
      if depth == 0 then is else skip depth is

/-- The entries of a mapping, behind its opening; the last argument bounds their
number. -/
def Anchors.entries? (a : Anchors) (items : List Item) : Nat → Option (List (String × Value))
  | 0 => none
  | fuel + 1 =>
      match items with
      | [] => none
      | .closes :: _ => some []
      | key :: rest => do
          match ← a.value? key with
          | .nested => none
          | .scalar s =>
              let value ← a.value? (← rest.head?)
              let entries ← a.entries? (Item.skip 0 rest) fuel
              return (s.text, value) :: entries

/-- The entries of a record, in order. -/
def parse? (text : List Char) : Option (List (String × Value)) := do
  let events ← Event.ofTokens? (← tokens? text)
  let (items, anchors) ← Anchors.number? {} events
  match items with
  | .opens .mapping :: rest => anchors.entries? rest rest.length
  | _ => none

end Yaml
end Loopsmith
