import Loopsmith.Proofs.Template.Completion

/-!
# Scanning the bytes of a template

A text can be scanned where it lies, by an index that walks over its bytes.  Nothing but a few
ASCII characters matters to the scanner, so it has no need to decode what it passes, and may stop
between two bytes of one character.  The price is that every access can go wrong: a byte may be
asked for behind the end, and a piece of the text may be cut out in the middle of a character.

The walker makes each of these accesses an operation that can fail with `outOfRange`, and a round
that does not come forward fails with `stalled`.  It keeps spans where a template keeps texts.
One round of it (`Walker.round`) is dispatched on what the walker is inside of, and `Walker.walk`
goes on round by round as long as there are bytes in front of the index.
-/

namespace Loopsmith

open Text (byteLength encode byte splitAtByte? IsAscii)

/-- Why a walk ends early. -/
inductive Halt where
  | fault (e : TagError)
  | outOfRange
  | stalled
  deriving DecidableEq, Repr

/-- A segment of a template by the bytes it takes up. -/
inductive Segment where
  | text (span : Span)
  | substitution (name : String) (span : Span)
  | conditional (name : String) (body span : Span)
  deriving DecidableEq, Repr

/-- The segment that a piece is at its place. -/
def Template.Placed.segment (p : Template.Placed) : Segment :=
  match p.piece with
  | .text _ => .text p.span
  | .tag (.substitution _ name _) => .substitution name p.span
  | .tag (.conditional _ name body) => .conditional name (p.bodySpan body) p.span

/-! ## Access -/

namespace Text

def byteAt (bytes : List UInt8) (i : Nat) : Except Halt UInt8 :=
  match bytes[i]? with
  | some b => .ok b
  | none => .error .outOfRange

def bytesFrom (bytes : List UInt8) (i : Nat) : Except Halt (List UInt8) :=
  if i ≤ bytes.length then .ok (bytes.drop i) else .error .outOfRange

/-- The text from byte `i` on, which has to be the beginning of a character or the end. -/
def textFrom (text : List Char) (i : Nat) : Except Halt (List Char) :=
  match splitAtByte? i text with
  | some (_, rest) => .ok rest
  | none => .error .outOfRange

/-- The text in a span, which has to begin and end between characters. -/
def textIn (text : List Char) (s : Span) : Except Halt (List Char) :=
  match splitAtByte? s.stop text with
  | some (front, _) => textFrom front s.start
  | none => .error .outOfRange

/-- The character that begins at byte `i`, if one does. -/
def charAt? (text : List Char) (i : Nat) : Option Char :=
  (splitAtByte? i text).bind fun (_, rest) => rest.head?

/-- The number of bytes in front of the first place where `p` stands. -/
def offsetOf? (p : List Char) : List Char → Option Nat
  | [] => if p.isPrefixOf [] then some 0 else none
  | c :: cs =>
      if p.isPrefixOf (c :: cs) then some 0 else (offsetOf? p cs).map (c.utf8Size + ·)

/-- The first place from `pos` on whose byte fails the test. -/
def skipWhile (f : UInt8 → Bool) (bytes : List UInt8) (pos : Nat) : Nat :=
  if h : pos < bytes.length then
    if f bytes[pos] then skipWhile f bytes (pos + 1) else pos
  else pos
termination_by bytes.length - pos

end Text

open Text (byteAt bytesFrom textFrom textIn charAt? offsetOf? skipWhile)

/-! ## Literals and comments -/

namespace Enclosure

/-- The literal or comment that two bytes open. -/
def opening? (first : UInt8) (second : Option UInt8) : Option Enclosure :=
  if first = byte '\'' then some character
  else if first = byte '"' then some string
  else if first = byte '/' ∧ second = some (byte '/') then some line
  else if first = byte '/' ∧ second = some (byte '*') then some block
  else none

/-- Goes behind the quote `q`.  What a backslash hides is one byte, not one character. -/
def passLiteral (q : UInt8) (bytes : List UInt8) (pos : Nat) : Nat × Bool :=
  if h : pos < bytes.length then
    if bytes[pos] = byte '\\' then passLiteral q bytes (min (pos + 1 + 1) bytes.length)
    else if bytes[pos] = q then (pos + 1, true)
    else passLiteral q bytes (pos + 1)
  else (pos, false)
termination_by bytes.length - pos

def passLine (bytes : List UInt8) (pos : Nat) : Except Halt (Nat × Bool) := do
  let rest ← bytesFrom bytes pos
  match rest.findIdx? (· == byte '\n') with
  | some n => return (pos + n + 1, true)
  | none => return (bytes.length, false)

/-- Whether a comment ends with the two bytes at `i`; the byte in front of them is looked at
last. -/
def endsAt (bytes : List UInt8) (i : Nat) : Except Halt Bool := do
  let star ← byteAt bytes i
  if star ≠ byte '*' then return false
  let slash ← byteAt bytes (i + 1)
  if slash ≠ byte '/' then return false
  if i = 0 then throw .outOfRange
  let before ← byteAt bytes (i - 1)
  return before ≠ byte '>'

def passBlock (bytes : List UInt8) (pos : Nat) : Except Halt (Nat × Bool) :=
  if pos + 1 < bytes.length then
    match endsAt bytes pos with
    | .error e => .error e
    | .ok true => .ok (pos + 2, true)
    | .ok false => passBlock bytes (pos + 1)
  else .ok (bytes.length, false)
termination_by bytes.length - pos

/-- Where a literal or comment ends whose opener stands in front of `pos`, and whether it is
closed there. -/
def pass (bytes : List UInt8) (pos : Nat) : Enclosure → Except Halt (Nat × Bool)
  | character => .ok (passLiteral (byte '\'') bytes pos)
  | string => .ok (passLiteral (byte '"') bytes pos)
  | line => passLine bytes pos
  | block => passBlock bytes pos

end Enclosure

/-! ## The walker -/

/-- What the walker is inside of. -/
inductive Mode where
  | code
  | enclosed (k : Enclosure)
  | substitution
  | conditional

structure Walker where
  pos : Nat
  /-- Where the text begins that no segment holds yet. -/
  textStart : Nat
  /-- Where the opener of the last tag stands. -/
  tagStart : Nat
  mode : Mode
  segments : List Segment

namespace Walker

def start : Walker :=
  ⟨0, 0, 0, .code, []⟩

/-- Makes a segment of the text up to `stop`, if there is any. -/
def flush (w : Walker) (stop : Nat) : Walker :=
  { w with
    segments := if w.textStart < stop then w.segments ++ [.text ⟨w.textStart, stop⟩]
      else w.segments
    textStart := stop }

def openTag (w : Walker) (opener : List Char) (mode : Mode) : Walker :=
  { w.flush w.pos with tagStart := w.pos, pos := w.pos + (encode opener).length, mode }

def closeTag (w : Walker) (s : Segment) (stop : Nat) : Walker :=
  { w with pos := stop, textStart := stop, mode := .code, segments := w.segments ++ [s] }

def advance (w : Walker) (n : Nat) (mode : Mode) : Walker :=
  { w with pos := w.pos + n, mode }

/-- A round outside of literals, comments and tags. -/
def roundCode (bytes : List UInt8) (w : Walker) : Except Halt Walker := do
  let rest ← bytesFrom bytes w.pos
  if (encode conditionalOpener).isPrefixOf rest then
    return w.openTag conditionalOpener .conditional
  if (encode substitutionOpener).isPrefixOf rest then
    return w.openTag substitutionOpener .substitution
  let first ← byteAt rest 0
  match Enclosure.opening? first rest[1]? with
  | some k => return w.advance (encode k.opener).length (.enclosed k)
  | none => return w.advance 1 .code

def roundEnclosed (bytes : List UInt8) (w : Walker) (k : Enclosure) : Except Halt Walker := do
  let (stop, closed) ← k.pass bytes w.pos
  return { w with pos := stop, mode := if closed then .code else .enclosed k }

def unterminated (text : List Char) (tagStart : Nat) : Halt :=
  .fault ⟨.unterminated, tagStart, (encode text).length⟩

/-- A fault at the character that begins at `pos`.  Where none does, its span is empty. -/
def faultAt (text : List Char) (fault : TagFault) (pos : Nat) : Halt :=
  .fault ⟨fault, Span.ofWidth pos (((charAt? text pos).map Char.utf8Size).getD 0)⟩

def isNameByte (b : UInt8) : Bool :=
  byte 'a' ≤ b && b ≤ byte 'z' || byte 'A' ≤ b && b ≤ byte 'Z' || byte '0' ≤ b && b ≤ byte '9' ||
    b == byte '_'

def skipSpaces (text : List Char) (pos : Nat) : Nat :=
  skipWhile (· == byte ' ') (encode text) pos

/-- Reads a name and the space behind it. -/
def passName (text : List Char) (tagStart pos : Nat) : Except Halt (String × Nat) :=
  let stop := skipWhile isNameByte (encode text) pos
  match (encode text)[stop]? with
  | none => .error (unterminated text tagStart)
  | some b =>
      if stop = pos then .error (faultAt text .emptyName stop)
      else if b = byte ' ' then do
        let name ← textIn text ⟨pos, stop⟩
        return (String.ofList name, stop + 1)
      else
        let c := (charAt? text stop).getD Text.replacement
        .error (faultAt text (.invalidNameCharacter c) stop)

/-- Whether the text ends with a part of the closing marker. -/
def atPartOfClose (text : List Char) (pos : Nat) : Except Halt Bool := do
  let rest ← bytesFrom (encode text) pos
  return decide (rest.length < (encode tagClose).length) && rest.isPrefixOf (encode tagClose)

/-- Reads the closing marker of a substitution tag. -/
def passClose (text : List Char) (tagStart pos : Nat) : Except Halt Nat := do
  let rest ← bytesFrom (encode text) pos
  if (encode tagClose).isPrefixOf rest then return pos + (encode tagClose).length
  match charAt? text pos with
  | none => throw (unterminated text tagStart)
  | some c =>
      let part ← atPartOfClose text pos
      if part then throw (unterminated text tagStart)
      throw (faultAt text (.expectedClose c) pos)

def roundSubstitution (text : List Char) (w : Walker) : Except Halt Walker := do
  let (name, afterName) ← passName text w.tagStart (skipSpaces text w.pos)
  let stop ← passClose text w.tagStart (skipSpaces text afterName)
  return w.closeTag (.substitution name ⟨w.tagStart, stop⟩) stop

def roundConditional (text : List Char) (w : Walker) : Except Halt Walker := do
  let (name, bodyStart) ← passName text w.tagStart (skipSpaces text w.pos)
  let rest ← textFrom text bodyStart
  match offsetOf? tagClose rest with
  | none => throw (unterminated text w.tagStart)
  | some n =>
      let stop := bodyStart + n + (encode tagClose).length
      return w.closeTag (.conditional name ⟨bodyStart, bodyStart + n⟩ ⟨w.tagStart, stop⟩) stop

def round (text : List Char) (w : Walker) : Except Halt Walker :=
  match w.mode with
  | .code => w.roundCode (encode text)
  | .enclosed k => w.roundEnclosed (encode text) k
  | .substitution => w.roundSubstitution text
  | .conditional => w.roundConditional text

/-- What is left to do when there are no more bytes. -/
def finish (text : List Char) (w : Walker) : Except Halt (List Segment) :=
  match w.mode with
  | .substitution => .error (unterminated text w.tagStart)
  | .conditional => .error (unterminated text w.tagStart)
  | _ => .ok (w.flush (encode text).length).segments

def walk (text : List Char) (w : Walker) : Except Halt (List Segment) :=
  if w.pos < (encode text).length then
    match w.round text with
    | .error e => .error e
    | .ok next => if w.pos < next.pos then next.walk text else .error .stalled
  else w.finish text
termination_by (encode text).length - w.pos

end Walker

/-! ## Rendering from spans -/

namespace Segment

def spans : Segment → List Span
  | text span => [span]
  | substitution _ span => [span]
  | conditional _ body span => [body, span]

/-- What a segment becomes.  A text and a body are cut out of the source, which may fail by
itself, apart from a parameter that is missing. -/
def render (source : List Char) (ps : Parameters) :
    Segment → Except Halt (Except RenderError (List Char))
  | text span => (textIn source span).map .ok
  | substitution name span =>
      match ps.get? name with
      | some value => .ok (.ok value.toList)
      | none => .ok (.error (.unbound name span))
  | conditional name body span =>
      match ps.get? name with
      | some value => if value = "0" then .ok (.ok []) else (textIn source body).map .ok
      | none => .ok (.error (.unbound name span))

def renderAll (source : List Char) (ps : Parameters) :
    List Segment → Except Halt (Except RenderError (List Char))
  | [] => .ok (.ok [])
  | s :: rest =>
      match s.render source ps with
      | .error e => .error e
      | .ok (.error e) => .ok (.error e)
      | .ok (.ok cs) => (renderAll source ps rest).map (·.map (cs ++ ·))

end Segment
end Loopsmith
