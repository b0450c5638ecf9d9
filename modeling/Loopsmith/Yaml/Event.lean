import Loopsmith.Yaml.Token

/-!
# YAML events

The tokens of a document say in order what it holds: scalars, where collections begin and
end, and aliases of what has an anchor.  A collection may be laid out by columns or stand
between brackets; what it holds is the same.  Where a key or a value is left out there is
an empty scalar.

What is still expected at a place is a stack of goals.  The first goal takes the tokens
that belong to it and may put other goals in front of those that are left.
-/

namespace Loopsmith
namespace Yaml

inductive Collection where
  | sequence
  | mapping
  deriving DecidableEq, Repr

inductive Event where
  | scalar (anchor : Option String) (s : Scalar)
  | opens (anchor : Option String) (kind : Collection)
  | closes
  | alias (name : String)
  deriving DecidableEq, Repr

namespace Event

/-- What stands where nothing is written. -/
def blank : Event := .scalar none .blank

end Event

/-- What is expected at a place. -/
inductive Goal where
  /-- A scalar, a collection between brackets or an alias; if `block` also a collection
  laid out by columns, and if `flush` a sequence in the column of the keys. -/
  | node (block flush : Bool)
  | blockItems
  | flushItems
  | blockKey
  | blockValue
  | flowItems (first : Bool)
  | pairKey
  | pairValue
  | pairEnd
  | flowKey (first : Bool)
  | flowValue
  | noValue
  deriving DecidableEq, Repr

/-- What has been found, what is expected in its place, and the tokens that are left. -/
structure Expansion where
  events : List Event
  goals : List Goal
  rest : List Token
  deriving DecidableEq, Repr

/-- What is written in front of a node. -/
structure Properties where
  anchor : Option String := none
  tag : Option TagText := none
  deriving DecidableEq, Repr

namespace Properties

/-- Reads an anchor and a tag, in either order. -/
def read : List Token → Properties × List Token
  | .anchor a :: .tag t :: rest => (⟨some a, some t⟩, rest)
  | .tag t :: .anchor a :: rest => (⟨some a, some t⟩, rest)
  | .anchor a :: rest => (⟨some a, none⟩, rest)
  | .tag t :: rest => (⟨none, some t⟩, rest)
  | rest => ({}, rest)

end Properties

namespace Goal

/-- Whether one of these tokens comes next. -/
def isNext (ts : List Token) (marks : List Token) : Bool :=
  ts.head?.any marks.contains

/-- A node, unless one of these tokens shows that it is left out. -/
def nodeUnless (marks : List Token) (node : Goal) (next : List Goal) (ts : List Token) :
    Expansion :=
  if isNext ts marks then ⟨[.blank], next, ts⟩ else ⟨[], node :: next, ts⟩

/-- A node with nothing in front of it. -/
def content? (block flush : Bool) (anchor : Option String) (tag : Option Tag) :
    List Token → Option Expansion
  | ts@(.item :: rest) =>
      if flush then some ⟨[.opens anchor .sequence], [.flushItems], ts⟩ else empty? (.item :: rest)
  | .scalar text style :: rest => some ⟨[.scalar anchor ⟨text, style, tag⟩], [], rest⟩
  | .sequenceOpen :: rest => some ⟨[.opens anchor .sequence], [.flowItems true], rest⟩
  | .mappingOpen :: rest => some ⟨[.opens anchor .mapping], [.flowKey true], rest⟩
  | .blockSequence :: rest =>
      if block then some ⟨[.opens anchor .sequence], [.blockItems], rest⟩
      else empty? (.blockSequence :: rest)
  | .blockMapping :: rest =>
      if block then some ⟨[.opens anchor .mapping], [.blockKey], rest⟩
      else empty? (.blockMapping :: rest)
  | ts => empty? ts
where
  /-- Nothing at all, which an anchor or a tag makes an empty scalar. -/
  empty? (ts : List Token) : Option Expansion :=
    if anchor.isSome || tag.isSome then
      some ⟨[.scalar anchor { text := "", tag }], [], ts⟩
    else none

def node? (handles : List (String × Tag)) (block flush : Bool) :
    List Token → Option Expansion
  | .alias name :: rest => some ⟨[.alias name], [], rest⟩
  | ts =>
      let (p, rest) := Properties.read ts
      match p.tag with
      | none => content? block flush p.anchor none rest
      | some t => do content? block flush p.anchor (← t.resolve? handles) rest

/-- What follows in brackets: nothing after the closing one, and a comma before every
entry but the first. -/
def entry? (first : Bool) (close : Token) (ts : List Token) : Option (List Token) :=
  if first || ts.head? == some close then some ts
  else match ts with
    | .comma :: rest => some rest
    | _ => none

/-- What the tokens give for a goal. -/
def expand? (handles : List (String × Tag)) : Goal → List Token → Option Expansion
  | .node block flush, ts => node? handles block flush ts
  | .blockItems, .item :: rest =>
      some (nodeUnless [.item, .blockEnd] (.node true false) [.blockItems] rest)
  | .blockItems, .blockEnd :: rest => some ⟨[.closes], [], rest⟩
  | .blockItems, _ => none
  | .flushItems, .item :: rest =>
      some (nodeUnless [.item, .key, .value, .blockEnd] (.node true false) [.flushItems] rest)
  | .flushItems, ts => some ⟨[.closes], [], ts⟩
  | .blockKey, .key :: rest =>
      some (nodeUnless [.key, .value, .blockEnd] (.node true true) [.blockValue] rest)
  | .blockKey, .blockEnd :: rest => some ⟨[.closes], [], rest⟩
  | .blockKey, _ => none
  | .blockValue, .value :: rest =>
      some (nodeUnless [.key, .value, .blockEnd] (.node true true) [.blockKey] rest)
  | .blockValue, ts => some ⟨[.blank], [.blockKey], ts⟩
  | .flowItems first, ts => do
      match ← entry? first .sequenceClose ts with
      | .sequenceClose :: rest => return ⟨[.closes], [], rest⟩
      | .key :: rest =>
          return ⟨[.opens none .mapping], [.pairKey, .pairValue, .pairEnd, .flowItems false], rest⟩
      | ts => return ⟨[], [.node false false, .flowItems false], ts⟩
  | .pairKey, ts =>
      if isNext ts [.value, .comma, .sequenceClose] then some ⟨[.blank], [], ts.tail⟩
      else some ⟨[], [.node false false], ts⟩
  | .pairValue, .value :: rest =>
      some (nodeUnless [.comma, .sequenceClose] (.node false false) [] rest)
  | .pairValue, ts => some ⟨[.blank], [], ts⟩
  | .pairEnd, ts => some ⟨[.closes], [], ts⟩
  | .flowKey first, ts => do
      match ← entry? first .mappingClose ts with
      | .mappingClose :: rest => return ⟨[.closes], [], rest⟩
      | .key :: rest =>
          return nodeUnless [.value, .comma, .mappingClose] (.node false false)
            [.flowValue, .flowKey false] rest
      | ts => return ⟨[], [.node false false, .noValue, .flowKey false], ts⟩
  | .flowValue, .value :: rest =>
      some (nodeUnless [.comma, .mappingClose] (.node false false) [] rest)
  | .flowValue, ts => some ⟨[.blank], [], ts⟩
  | .noValue, ts => some ⟨[.blank], [], ts⟩

/-- Takes the tokens that belong to some goals and puts their events in front of `found`, the
last one first; the last argument bounds the number of steps. -/
def run? (handles : List (String × Tag)) (goals : List Goal) (ts : List Token)
    (found : List Event) : Nat → Option (List Event × List Token)
  | 0 => none
  | fuel + 1 =>
      match goals with
      | [] => some (found.reverse, ts)
      | g :: goals => do
          let e ← g.expand? handles ts
          run? handles (e.goals ++ goals) e.rest (e.events.reverse ++ found) fuel

/-- The events of one node.  Between two tokens that are taken there are only a few
steps. -/
def events? (handles : List (String × Tag)) (g : Goal) (ts : List Token) :
    Option (List Event × List Token) :=
  run? handles [g] ts [] (8 * (ts.length + 2))

end Goal

/-! ## Documents -/

namespace Directive

/-- What the directives before a document say. -/
structure Preamble where
  hasVersion : Bool := false
  handles : List (String × Tag) := []
  deriving DecidableEq, Repr

/-- The handles that need no directive. -/
def standardHandles : List (String × Tag) :=
  [("!", Tag.ofString "!"), ("!!", Tag.ofString Tag.standard)]

/-- Takes a directive.  The version and each handle may be given once, and the version is
1.1 or 1.2. -/
def Preamble.add? (p : Preamble) : Directive → Option Preamble
  | version major minor =>
      if !p.hasVersion && major == 1 && (minor == 1 || minor == 2) then
        some { p with hasVersion := true }
      else none
  | handle name stands =>
      if (p.handles.lookup name).isSome then none
      else some { p with handles := (name, stands) :: p.handles }

end Directive

/-- Takes the directives at the head of some tokens. -/
def Directive.readAll (p : Preamble) : List Token → Option (Preamble × List Token)
  | .directive d :: rest => do readAll (← p.add? d) rest
  | ts => some (p, ts)

/-- The tokens that stand outside a document. -/
def Token.isOutside : Token → Bool
  | .directive _ => true
  | .documentStart => true
  | .documentEnd => true
  | _ => false

namespace Event

/-- The events of a document from its first token.  A mark may start it, and has to after
directives; only behind a mark may it be empty. -/
def ofDocument? (handles : List (String × Tag)) (directed : Bool) :
    List Token → Option (List Event × List Token)
  | .documentStart :: rest =>
      if rest.head?.all Token.isOutside then some ([.blank], rest)
      else (Goal.node true false).events? handles rest
  | ts => if directed then none else (Goal.node true false).events? handles ts

/-- The events of the one document that some tokens make up. -/
def ofTokens? (ts : List Token) : Option (List Event) := do
  let (preamble, rest) ← Directive.readAll {} ts
  let (events, rest) ←
    ofDocument? (preamble.handles ++ Directive.standardHandles) (rest != ts) rest
  if (rest.dropWhile (· == .documentEnd)).isEmpty then some events else none

end Event
end Yaml
end Loopsmith
