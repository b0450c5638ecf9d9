import Loopsmith.Yaml.Block
import Loopsmith.Yaml.Plain
import Loopsmith.Yaml.Quoted
import Loopsmith.Yaml.Tag

/-!
# YAML tokens

Tokens are the marks and scalars of a text, together with marks that are not written:
where a collection that is laid out by columns starts and ends, and that a key begins.

Whether something is a key shows only at the colon behind it.  So the place of
everything that could be a key is kept, and when the colon comes the mark of the key is
put in there.  A key has to be on one line and within 1024 characters.  Outside brackets
something that starts in the column of the keys has to be one.
-/

namespace Loopsmith
namespace Yaml

inductive Token where
  | directive (d : Directive)
  | documentStart
  | documentEnd
  | blockSequence
  | blockMapping
  | blockEnd
  | sequenceOpen
  | sequenceClose
  | mappingOpen
  | mappingClose
  | item
  | comma
  | key
  | value
  | alias (name : String)
  | anchor (name : String)
  | tag (t : TagText)
  | scalar (text : String) (style : Style)
  deriving DecidableEq, Repr

/-- The place of something that could turn out to be a key. -/
structure Candidate where
  /-- Whether nothing else can stand here. -/
  required : Bool
  /-- The number of tokens before it. -/
  position : Nat
  start : Cursor
  deriving DecidableEq, Repr

namespace Candidate

/-- The longest a key may be. -/
def longest : Nat := 1024

/-- Whether the text has gone on too far for a colon. -/
def isStale (k : Candidate) (c : Cursor) : Bool :=
  k.start.line < c.line || k.start.index + longest < c.index

end Candidate

/-- How far a text has been taken apart. -/
structure Scan where
  cursor : Cursor
  /-- More than the number of characters of the text. -/
  limit : Nat
  /-- The tokens so far, the last one first. -/
  tokens : List Token := []
  /-- How many tokens these are. -/
  count : Nat := 0
  /-- The columns of the collections that are laid out by columns, innermost first. -/
  indents : List Nat := []
  /-- What could be a key where we are. -/
  candidate : Option Candidate := none
  /-- What could be a key before each bracket that is open, innermost first. -/
  outer : List (Option Candidate) := []
  /-- Whether a key may start here. -/
  keyAllowed : Bool := true
  deriving DecidableEq, Repr

namespace Scan

/-- Whether this is between brackets. -/
def inFlow (s : Scan) : Bool :=
  !s.outer.isEmpty

def push (s : Scan) (t : Token) : Scan :=
  { s with tokens := t :: s.tokens, count := s.count + 1 }

/-- Puts a token in after the first `n`. -/
def insert (s : Scan) (n : Nat) (t : Token) : Scan :=
  let later := s.count - n
  { s with
    tokens := s.tokens.take later ++ t :: s.tokens.drop later
    count := s.count + 1 }

def goTo (s : Scan) (c : Cursor) : Scan :=
  { s with cursor := c }

/-- Takes a mark of this many characters. -/
def mark (s : Scan) (t : Token) (length : Nat) : Scan :=
  (s.goTo (s.cursor.advance length)).push t

def allowKey (s : Scan) (b : Bool) : Scan :=
  { s with keyAllowed := b }

/-! ## Keys -/

/-- Gives up a candidate, unless nothing but a key could stand there. -/
def dropCandidate? (s : Scan) : Option Scan :=
  if s.candidate.any (·.required) then none else some { s with candidate := none }

/-- Makes what starts here a candidate, if a key may start here. -/
def noteCandidate? (s : Scan) : Option Scan :=
  if !s.keyAllowed then some s
  else do
    let k : Candidate :=
      { required := !s.inFlow && s.indents.head? == some s.cursor.column,
        position := s.count, start := s.cursor }
    let s ← s.dropCandidate?
    return { s with candidate := some k }

/-- Gives up a candidate that is too far back.  Those before an open bracket are looked at
when it has been closed. -/
def dropStale? (s : Scan) : Option Scan :=
  if s.candidate.any (·.isStale s.cursor) then s.dropCandidate? else some s

/-! ## Columns -/

/-- Starts a collection in this column, if it is further to the right, with its mark
after the first `n` tokens. -/
def indent (s : Scan) (column n : Nat) (t : Token) : Scan :=
  if !s.inFlow && s.indents.head?.all (· < column) then
    { s.insert n t with indents := column :: s.indents }
  else s

/-- Ends the collections that are further to the right than this column; `none` is left
of all of them. -/
def dedent (s : Scan) (column : Option Nat) : Scan :=
  if s.inFlow then s
  else
    let deeper := s.indents.takeWhile fun n => column.all (· < n)
    { s with
      indents := s.indents.drop deeper.length
      tokens := deeper.map (fun _ => Token.blockEnd) ++ s.tokens
      count := s.count + deeper.length }

/-- The first column that is inside the innermost collection. -/
def inside (s : Scan) : Nat :=
  (s.indents.head?.map (· + 1)).getD 0

/-! ## Space between tokens -/

/-- Whether a blank may be passed over here; a tab at the head of a line could be taken
for indentation. -/
def isSpace (s : Scan) (x : Char) : Bool :=
  x == ' ' || (x == '\t' && (s.inFlow || !s.keyAllowed))

/-- Goes to the next token, past blanks, comments and ends of lines; the last argument
bounds the number of lines. -/
def skipLines (s : Scan) : Nat → Scan
  | 0 => s
  | fuel + 1 =>
      let c := s.cursor
      let c := if c.column == 0 && c.isAt '\uFEFF' then c.advance 1 else c
      let c := (c.skipWhile s.isSpace).skipComment
      if c.rest.head?.any isBreak then
        skipLines { s with cursor := c.takeBreak.2, keyAllowed := s.keyAllowed || !s.inFlow } fuel
      else s.goTo c

def skipSpace (s : Scan) : Scan :=
  s.skipLines s.limit

/-! ## Reading tokens -/

/-- Takes a mark between documents, or a directive. -/
def leave? (s : Scan) : Option Scan := do
  let s ← (s.dedent none).dropCandidate?
  return s.allowKey false

def opening? (s : Scan) (t : Token) : Option Scan := do
  let s ← s.noteCandidate?
  let s := { s with candidate := none, outer := s.candidate :: s.outer }
  return (s.allowKey true).mark t 1

def closing? (s : Scan) (t : Token) : Option Scan := do
  let s ← s.dropCandidate?
  let s := match s.outer with
    | [] => s
    | k :: outer => { s with candidate := k, outer }
  return (s.allowKey false).mark t 1

def comma? (s : Scan) : Option Scan := do
  let s ← s.dropCandidate?
  return (s.allowKey true).mark .comma 1

/-- Takes the mark of an item or of a key that is not on one line. -/
def entry? (s : Scan) (collection t : Token) (allow : Bool) : Option Scan :=
  if !s.inFlow && !s.keyAllowed then none
  else do
    let s ← (s.indent s.cursor.column s.count collection).dropCandidate?
    return (s.allowKey allow).mark t 1

def value? (s : Scan) : Option Scan :=
  match s.candidate with
  | some k =>
      let s := (s.insert k.position .key).indent k.start.column k.position .blockMapping
      some (({ s with candidate := none }.allowKey false).mark .value 1)
  | none =>
      if s.inFlow then some ((s.allowKey false).mark .value 1)
      else if !s.keyAllowed then none
      else
        let s := s.indent s.cursor.column s.count .blockMapping
        some ((s.allowKey true).mark .value 1)

/-- Takes something that may be a key, or stand in front of one. -/
def word? (s : Scan) (read : Cursor → Option (Token × Cursor)) : Option Scan := do
  let s ← s.noteCandidate?
  let (t, c) ← read s.cursor
  return ((s.allowKey false).goTo c).push t

def block? (s : Scan) (folded : Bool) : Option Scan := do
  let s ← s.dropCandidate?
  let (text, c) ← s.cursor.block? s.limit folded s.indents.head?
  let style := if folded then Style.folded else .literal
  return ((s.allowKey true).goTo c).push (.scalar text style)

def quoted? (s : Scan) (single : Bool) : Option Scan :=
  s.word? fun c => do
    let (text, c) ← c.quoted? s.limit single
    return (.scalar text (if single then .single else .double), c)

/-- Takes a plain scalar; after the end of a line a key may follow it. -/
def plain? (s : Scan) : Option Scan := do
  let s ← s.noteCandidate?
  let r ← s.cursor.plain? s.limit s.inFlow s.inside
  return ((s.allowKey r.broken).goTo r.after).push (.scalar r.text .plain)

/-- Takes the token that starts with `x`. -/
def token? (s : Scan) (x : Char) : Option Scan :=
  let c := s.cursor
  let marksEntry := s.inFlow || c.gapAt 1
  if c.column == 0 && x == '%' then do
    let s ← s.leave?
    let (d, c) ← c.directive?
    return (s.goTo c).push (.directive d)
  else if c.atMarker '-' then do return (← s.leave?).mark .documentStart 3
  else if c.atMarker '.' then do return (← s.leave?).mark .documentEnd 3
  else if x == '[' then s.opening? .sequenceOpen
  else if x == '\x7b' then s.opening? .mappingOpen
  else if x == ']' then s.closing? .sequenceClose
  else if x == '\x7d' then s.closing? .mappingClose
  else if x == ',' then s.comma?
  else if x == '-' && c.gapAt 1 then s.entry? .blockSequence .item true
  else if x == '?' && marksEntry then s.entry? .blockMapping .key (!s.inFlow)
  else if x == ':' && marksEntry then s.value?
  else if x == '*' then s.word? fun c => c.anchor?.map fun (n, c) => (.alias n, c)
  else if x == '&' then s.word? fun c => c.anchor?.map fun (n, c) => (.anchor n, c)
  else if x == '!' then s.word? fun c => (c.tag? s.inFlow).map fun (t, c) => (.tag t, c)
  else if x == '|' && !s.inFlow then s.block? false
  else if x == '>' && !s.inFlow then s.block? true
  else if x == '\'' then s.quoted? true
  else if x == '"' then s.quoted? false
  else if c.startsPlain s.inFlow then s.plain?
  else none

/-- Reads on to the end of the text; the last argument bounds the number of tokens. -/
def finish? (s : Scan) : Nat → Option (List Token)
  | 0 => none
  | fuel + 1 => do
      let s ← s.skipSpace.dropStale?
      let s := s.dedent (some s.cursor.column)
      match s.cursor.rest.head? with
      | none => return (← s.leave?).tokens.reverse
      | some x => (← s.token? x).finish? fuel

end Scan

/-- The tokens of a text. -/
def tokens? (cs : List Char) : Option (List Token) :=
  let limit := cs.length + 1
  if cs.all isAllowed then Scan.finish? { cursor := { rest := cs }, limit } limit else none

end Yaml
end Loopsmith
