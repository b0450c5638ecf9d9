import Loopsmith.Decimal.Read
import Loopsmith.Logging.Level
import Loopsmith.Logging.Pattern.Basic
import Loopsmith.Text.Split
import Loopsmith.Text.Utf8

/-!
# Log filters

A filter is a list of directives with commas between them; where nothing stands between
two commas there is no directive.  A directive is a level (`info`, or a number from 0 to 5),
a target (`doping`, which then logs everything), or a target and a level
(`doping=debug`); a span in brackets, with a field in braces, may follow the target or
stand in its place.  A field may be compared with a number or a pattern.  One bad directive
spoils the filter.

A directive is looked at without the blanks around it, but what is cut out of it is
cut out of the untrimmed text at the same bytes.  So after a leading blank a level
is no longer recognized and the text counts as a target; and a cut may fall inside a
character, which is worse than a bad directive.

There are no spans here, so directives that name a span or compare a field let nothing
through.  Of the others, the most specific one that concerns an event decides on it.
-/

namespace Loopsmith

/-- The levels that a directive lets through: none, or up to one. -/
structure Threshold where
  level : Option Level
  deriving DecidableEq, Repr

namespace Threshold

def off : Threshold := ⟨none⟩

def admits (t : Threshold) (l : Level) : Bool :=
  match t.level with
  | none => false
  | some most => l.rank ≤ most.rank

def ofNumber : Nat → Option Threshold
  | 0 => some off
  | 1 => some ⟨some .error⟩
  | 2 => some ⟨some .warn⟩
  | 3 => some ⟨some .info⟩
  | 4 => some ⟨some .debug⟩
  | 5 => some ⟨some .trace⟩
  | _ => none

def ofWord : String → Option Threshold
  | "off" => some off
  | "error" => some ⟨some .error⟩
  | "warn" => some ⟨some .warn⟩
  | "info" => some ⟨some .info⟩
  | "debug" => some ⟨some .debug⟩
  | "trace" => some ⟨some .trace⟩
  | _ => none

/-- Reads a level by its number or by its name, in any case of letters. -/
def read (cs : List Char) : Option Threshold :=
  let digits := match cs with
    | '+' :: rest => rest
    | _ => cs
  if !digits.isEmpty && digits.all Char.isDigit then
    ofNumber (digits.foldl (fun n c => 10 * n + (c.toNat - 48)) 0)
  else ofWord (String.ofList (cs.map Char.toLower))

end Threshold

/-- Why a filter cannot be used. -/
inductive FilterFault where
  /-- A directive is malformed. -/
  | malformed
  /-- A cut falls inside a character. -/
  | insideCharacter
  deriving DecidableEq, Repr

/-- A field that a directive is limited to. -/
structure FieldTest where
  name : String
  /-- Whether its value is compared with something. -/
  compared : Bool
  deriving DecidableEq, Repr

namespace FieldTest

/-- What a field may be compared with: a number or a pattern, truth values being patterns
too. -/
def isComparable (cs : List Char) : Bool :=
  (Decimal.read? (String.ofList cs)).isSome || Pattern.isPattern cs

/-- Reads a field; what follows a second equality sign is ignored. -/
def read? (cs : List Char) : Option FieldTest :=
  match Text.splitOn '=' cs with
  | [] => none
  | [name] => if name.isEmpty then none else some ⟨String.ofList name, false⟩
  | name :: value :: _ =>
      if isComparable value then some ⟨String.ofList name, true⟩ else none

end FieldTest

structure Directive where
  threshold : Threshold := ⟨some .trace⟩
  target : Option String := none
  span : Option String := none
  field : Option FieldTest := none
  deriving DecidableEq, Repr

namespace Directive

/-- The part of a directive that is being read, and the byte where it begins. -/
inductive Part where
  | start
  | levelOrTarget (begins : Nat)
  | span (begins : Nat)
  | field (begins : Nat)
  | fields
  | afterSpan
  | level (begins : Nat)
  deriving DecidableEq, Repr

/-- How far a directive has been read, in bytes. -/
structure Progress where
  offset : Nat := 0
  part : Part := .start
  directive : Directive := {}
  deriving DecidableEq, Repr

/-- The bytes of a text from one offset to another, or to the end. -/
def cut (whole : List Char) (begins : Nat) (ends : Option Nat) :
    Except FilterFault (List Char) :=
  let kept : Option (List Char) := do
    let text ← match ends with
      | none => some whole
      | some n => (Text.splitAtByte? n whole).map Prod.fst
    (Text.splitAtByte? begins text).map Prod.snd
  match kept with
  | none => .error .insideCharacter
  | some cs => .ok cs

def malformed {α : Type} : Except FilterFault α :=
  .error .malformed

/-- Characters that may begin a level or a target. -/
def isFirst (c : Char) : Bool :=
  ['-', ':', '_'].contains c || Text.isLetterOrDigit c

/-- What the next character `c` of the directive `whole` makes of its part. -/
def nextPart (whole : List Char) (p : Progress) (c : Char) :
    Except FilterFault (Part × Directive) := do
  let i := p.offset
  let d := p.directive
  match p.part with
  | .start =>
      if c == '[' then return (.span (i + 1), d)
      else if isFirst c then return (.levelOrTarget i, d)
      else malformed
  | .levelOrTarget begins =>
      if c == '=' || c == '[' then
        let target := some (String.ofList (← cut whole begins (some i)))
        return (if c == '=' then .level (i + 1) else .span (i + 1), { d with target })
      else return (p.part, d)
  | .span begins =>
      if c == ']' then
        return (.afterSpan, { d with span := some (String.ofList (← cut whole begins (some i))) })
      else if c == '\x7b' then
        let name ← cut whole begins (some i)
        let span := if name.isEmpty then none else some (String.ofList name)
        return (.field (i + 1), { d with span })
      else return (p.part, d)
  | .field begins =>
      if c == '\x7d' then
        match FieldTest.read? (← cut whole begins (some i)) with
        | none => malformed
        | some field => return (.fields, { d with field := some field })
      else return (p.part, d)
  | .fields => if c == ']' then return (.afterSpan, d) else malformed
  | .afterSpan => if c == '=' then return (.level (i + 1), d) else malformed
  | .level _ => return (p.part, d)

/-- Reads one character more. -/
def step (whole : List Char) (p : Progress) (c : Char) : Except FilterFault Progress := do
  let (part, directive) ← nextPart whole p c
  return { offset := p.offset + c.utf8Size, part, directive }

/-- What the end of a directive makes of it. -/
def close (whole : List Char) (p : Progress) : Except FilterFault Directive := do
  let d := p.directive
  match p.part with
  | .levelOrTarget begins =>
      let text ← cut whole begins none
      match Threshold.read text with
      | some t => return { d with threshold := t }
      | none => return { d with target := some (String.ofList text) }
  | .level begins =>
      let text ← cut whole begins none
      if text.isEmpty then return d
      else
        match Threshold.read text with
        | some t => return { d with threshold := t }
        | none => malformed
  | .afterSpan => return d
  | _ => malformed

def read (whole : List Char) : Except FilterFault Directive := do
  close whole (← (Text.trim whole).foldlM (step whole) {})

/-! ## Which events a directive concerns -/

/-- Whether a directive can let events through where there are no spans. -/
def isStatic (d : Directive) : Bool :=
  d.span.isNone && !d.field.any (·.compared)

/-- Whether a directive concerns events of a target with these fields. -/
def concerns (d : Directive) (target : String) (fields : List String) : Bool :=
  (d.target.getD "").toList.isPrefixOf target.toList && d.field.all (fields.contains ·.name)

/-- A directive with a longer target is more specific, then one with a field, then one
whose field comes later in the alphabet. -/
def isAtMost (a b : Directive) : Bool :=
  let length (d : Directive) : Nat := (d.target.map (·.utf8ByteSize + 1)).getD 0
  let name (d : Directive) : List Char := (d.field.map (·.name.toList)).getD []
  if length a != length b then length a < length b
  else if a.field.isSome != b.field.isSome then b.field.isSome
  else !(name b).lex (name a)

end Directive

structure Filter where
  directives : List Directive
  deriving DecidableEq, Repr

namespace Filter

def ofLevel (l : Level) : Filter :=
  ⟨[{ threshold := ⟨some l⟩ }]⟩

def read (text : String) : Except FilterFault Filter := do
  let pieces := (Text.splitOn ',' text.toList).filter (!·.isEmpty)
  return ⟨← pieces.mapM Directive.read⟩

/-- The most specific directive that concerns an event; of several equally specific ones
the last. -/
def decisive? (f : Filter) (target : String) (fields : List String) : Option Directive :=
  (f.directives.filter fun d => d.isStatic && d.concerns target fields).foldl
    (fun best d => if best.all (·.isAtMost d) then some d else best) none

/-- Whether events of a target with these fields are let through at a level.  A filter
without directives lets errors through. -/
def shows (f : Filter) (target : String) (fields : List String) (l : Level) : Bool :=
  if f.directives.isEmpty then l.rank ≤ Level.error.rank
  else (f.decisive? target fields).any (·.threshold.admits l)

end Filter
end Loopsmith
