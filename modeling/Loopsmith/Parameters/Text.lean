import Loopsmith.Name
import Loopsmith.Parameters.Basic
import Loopsmith.Span
import Loopsmith.Text.Blank
import Loopsmith.Text.Split
import Loopsmith.Text.Utf8

/-!
# Parameter lists as text

Parameters are written `A:3,B:6`.  A field is what stands between two commas, its
name is what stands before the first colon, and both name and value are trimmed;
values may hold further colons but no comma.  A text of blanks alone is the empty
list, while a blank field among others is an error, since it is more likely a
slip than an intention.

`insert` takes exactly the pairs that reading can produce, so a list that was
built by reading and inserting can always be written and read again.
-/

namespace Loopsmith

/-- Why a parameter was refused; the span selects the field it stands in. -/
inductive ParameterError where
  | emptyPair (span : Span)
  | missingSeparator (pair : String) (span : Span)
  | emptyName (pair : String) (span : Span)
  | invalidName (name : String) (c : Char) (span : Span)
  /-- The value holds a comma or has blanks at an end, so it could not be read
  back. -/
  | invalidValue (name value : String) (span : Span)
  deriving DecidableEq, Repr

namespace ParameterError

def span : ParameterError → Span
  | emptyPair span => span
  | missingSeparator _ span => span
  | emptyName _ span => span
  | invalidName _ _ span => span
  | invalidValue _ _ span => span

def message : ParameterError → String
  | emptyPair span => s!"empty parameter pair at byte {span.start}"
  | missingSeparator pair _ => s!"parameter pair `{pair}` is missing the `:` separator"
  | emptyName pair _ => s!"parameter pair `{pair}` has an empty name"
  | invalidName name c _ => s!"invalid character `{c}` in parameter name `{name}`"
  | invalidValue name value _ =>
      s!"parameter `{name}` has a value `{value}` that cannot be written as `{name}:value`"

end ParameterError

namespace Parameters

/-! ## Fields -/

/-- Splits a field at its first colon, which is left out. -/
def splitPair : List Char → Option (List Char × List Char)
  | [] => none
  | c :: cs =>
      if c == ':' then some ([], cs)
      else (splitPair cs).map fun (name, value) => (c :: name, value)

def checkName (name : List Char) (span : Span) : Except ParameterError Unit :=
  match name.find? (fun c => !isNameChar c) with
  | some c => .error (.invalidName (String.ofList name) c span)
  | none => .ok ()

/-- Reads one field into a name and a value. -/
def readField (field : List Char) (span : Span) : Except ParameterError (String × String) :=
  let shown := Text.trim field
  if shown.isEmpty then .error (.emptyPair span)
  else
    match splitPair field with
    | none => .error (.missingSeparator (String.ofList shown) span)
    | some (name, value) =>
        let name := Text.trim name
        if name.isEmpty then .error (.emptyName (String.ofList shown) span)
        else
          match checkName name span with
          | .error e => .error e
          | .ok () => .ok (String.ofList name, String.ofList (Text.trim value))

/-- Reads fields from left to right, the first of them at byte `pos`. -/
def readFields (ps : Parameters) (pos : Nat) : List (List Char) → Except ParameterError Parameters
  | [] => .ok ps
  | field :: rest =>
      let width := Text.byteLength field
      match readField field (Span.ofWidth pos width) with
      | .error e => .error e
      | .ok (name, value) => readFields (ps.set name value) (pos + width + 1) rest

/-! ## Reading and writing lists -/

def ofChars? (cs : List Char) : Except ParameterError Parameters :=
  if (Text.trim cs).isEmpty then .ok empty
  else readFields empty 0 (Text.splitOn ',' cs)

def parse (text : String) : Except ParameterError Parameters :=
  ofChars? text.toList

def writePair (p : String × String) : List Char :=
  p.1.toList ++ ':' :: p.2.toList

def writePairs : List (String × String) → List Char
  | [] => []
  | [p] => writePair p
  | p :: rest => writePair p ++ ',' :: writePairs rest

/-- The list in its one written form. -/
def serialize (ps : Parameters) : String :=
  String.ofList (writePairs ps.pairs)

/-! ## Inserting a pair -/

/-- A value that reading could have produced. -/
def isValue (value : List Char) : Bool :=
  !value.contains ',' && Text.trim value == value

/-- Gives `name` a value and answers with the one it had, or refuses the pair.  The list as it is
afterwards comes with the answer. -/
def insert (ps : Parameters) (name value : String) :
    Except ParameterError (Option String) × Parameters :=
  let span : Span := ⟨0, 0⟩
  if name.toList.isEmpty then (.error (.emptyName s!":{value}" span), ps)
  else
    match checkName name.toList span with
    | .error e => (.error e, ps)
    | .ok () =>
        if isValue value.toList then (.ok (ps.get? name), ps.set name value)
        else (.error (.invalidValue name value span), ps)

end Parameters
end Loopsmith
