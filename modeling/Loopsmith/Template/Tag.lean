import Loopsmith.Name
import Loopsmith.Span
import Loopsmith.Text.Utf8

/-!
# Tags

A template is source code with two kinds of tags in it, both dressed as block
comments so that an ordinary compiler still accepts the file:

* `/*<DOPING NAME >*/` stands for the value of a parameter;
* `/*<DOPING_IF NAME BODY>*/` stands for its body, or for nothing when the
  parameter is `0`.

A `Tag` keeps the number of spaces that its author wrote, so `Tag.source` gives
back the very text it was read from.  `Tag.read_source` says so, and every fact
about how much of the source a tag takes up is a consequence of it.

## Which error is reported

A tag can be cut off or malformed.  It is cut off (`unterminated`) when the text
ends and some continuation would complete it, and malformed at the first
character that no continuation could repair.  The span of the former is the
rest of the text from the opener on, that of the latter is the one character.
-/

namespace Loopsmith

/-! ## Markers -/

/-- What a substitution tag starts with. -/
def substitutionOpener : List Char :=
  ['/', '*', '<', 'D', 'O', 'P', 'I', 'N', 'G', ' ']

/-- What a conditional tag starts with. -/
def conditionalOpener : List Char :=
  ['/', '*', '<', 'D', 'O', 'P', 'I', 'N', 'G', '_', 'I', 'F', ' ']

/-- What every tag ends with. -/
def tagClose : List Char :=
  ['>', '*', '/']

def isSpace (c : Char) : Bool :=
  c == ' '

/-! ## Tags and their faults -/

inductive Tag where
  /-- `lead` spaces follow the opener, `trail` spaces follow the one that ends the
  name. -/
  | substitution (lead : Nat) (name : String) (trail : Nat)
  /-- The body starts right after the space that ends the name. -/
  | conditional (lead : Nat) (name : String) (body : List Char)
  deriving DecidableEq, Repr

/-- What is wrong with a tag. -/
inductive TagFault where
  | unterminated
  | invalidNameCharacter (c : Char)
  | emptyName
  | expectedClose (c : Char)
  deriving DecidableEq, Repr

def TagFault.message : TagFault → String
  | .unterminated => "unterminated template tag, expected `>*/` before end of input"
  | .invalidNameCharacter c => s!"invalid character `{c}` in template tag name"
  | .emptyName => "template tag has an empty name"
  | .expectedClose c => s!"unexpected `{c}` in template tag, expected `>*/`"

structure TagError where
  fault : TagFault
  span : Span
  deriving DecidableEq, Repr

namespace Tag

def name : Tag → String
  | substitution _ name _ => name
  | conditional _ name _ => name

/-- The text the tag was read from. -/
def source : Tag → List Char
  | substitution lead name trail =>
      substitutionOpener ++ List.replicate lead ' ' ++ name.toList ++
        ' ' :: List.replicate trail ' ' ++ tagClose
  | conditional lead name body =>
      conditionalOpener ++ List.replicate lead ' ' ++ name.toList ++ ' ' :: body ++ tagClose

theorem source_ne_nil (t : Tag) : t.source ≠ [] := by
  cases t <;> simp [source, substitutionOpener, conditionalOpener]

/-! ## Reading one tag -/

/-- Where a tag stands: the offsets of its opener and of the end of the text. -/
structure Place where
  opener : Nat
  stop : Nat

/-- The place of a tag that starts at byte `pos`, from where `cs` runs to the end of
the text. -/
def Place.ofText (pos : Nat) (cs : List Char) : Place :=
  ⟨pos, pos + Text.byteLength cs⟩

def Place.unterminated (p : Place) : TagError :=
  ⟨.unterminated, p.opener, p.stop⟩

/-- A fault at the character `c` with `rest` after it. -/
def Place.faultAt (p : Place) (fault : TagFault) (c : Char) (rest : List Char) : TagError :=
  ⟨fault, Span.ofWidth (p.stop - Text.byteLength (c :: rest)) c.utf8Size⟩

/-- Reads a name and the one space that has to follow it. -/
def readName (p : Place) (cs : List Char) : Except TagError (String × List Char) :=
  let name := cs.takeWhile isNameChar
  match cs.dropWhile isNameChar with
  | [] => .error p.unterminated
  | c :: rest =>
      if name.isEmpty then .error (p.faultAt .emptyName c rest)
      else if c == ' ' then .ok (String.ofList name, rest)
      else .error (p.faultAt (.invalidNameCharacter c) c rest)

/-- Reads what follows the opener of a substitution tag. -/
def readSubstitution (p : Place) (cs : List Char) : Except TagError (Tag × List Char) := do
  let lead := (cs.takeWhile isSpace).length
  let (name, afterName) ← readName p (cs.dropWhile isSpace)
  let trail := (afterName.takeWhile isSpace).length
  let rest := afterName.dropWhile isSpace
  match tagClose.isPrefixOf? rest with
  | some afterTag => .ok (substitution lead name trail, afterTag)
  | none =>
      match rest with
      | [] => .error p.unterminated
      | c :: after =>
          if rest.isPrefixOf tagClose then .error p.unterminated
          else .error (p.faultAt (.expectedClose c) c after)

/-- Splits a text at the first `>*/`, which is left out. -/
def splitAtClose : List Char → Option (List Char × List Char)
  | [] => none
  | c :: cs =>
      match tagClose.isPrefixOf? (c :: cs) with
      | some rest => some ([], rest)
      | none => (splitAtClose cs).map fun (body, rest) => (c :: body, rest)

/-- Reads what follows the opener of a conditional tag. -/
def readConditional (p : Place) (cs : List Char) : Except TagError (Tag × List Char) := do
  let lead := (cs.takeWhile isSpace).length
  let (name, afterName) ← readName p (cs.dropWhile isSpace)
  match splitAtClose afterName with
  | some (body, afterTag) => .ok (conditional lead name body, afterTag)
  | none => .error p.unterminated

/-- Reads the tag at the head of `cs`, which starts at byte `pos` of the text and
runs to its end.  Without an opener there, the answer is `none`. -/
def read? (pos : Nat) (cs : List Char) : Option (Except TagError (Tag × List Char)) :=
  match conditionalOpener.isPrefixOf? cs with
  | some rest => some (readConditional (Place.ofText pos cs) rest)
  | none =>
      match substitutionOpener.isPrefixOf? cs with
      | some rest => some (readSubstitution (Place.ofText pos cs) rest)
      | none => none

/-! ## A tag is read from its source -/

theorem eq_append_of_isPrefixOf? {p cs rest : List Char}
    (h : p.isPrefixOf? cs = some rest) : cs = p ++ rest := by
  induction p generalizing cs with
  | nil => exact Option.some.inj h
  | cons a p ih =>
      cases cs with
      | nil => cases h
      | cons c cs =>
          change (if a == c then p.isPrefixOf? cs else none) = some rest at h
          split at h
          · next hac => rw [ih h, eq_of_beq hac, List.cons_append]
          · cases h

theorem takeWhile_isSpace (cs : List Char) :
    cs.takeWhile isSpace = List.replicate (cs.takeWhile isSpace).length ' ' := by
  refine List.eq_replicate_iff.2 ⟨rfl, fun c hc => ?_⟩
  induction cs with
  | nil => simp at hc
  | cons d cs ih =>
      rw [List.takeWhile_cons] at hc
      split at hc
      · next hd =>
          rcases List.mem_cons.1 hc with rfl | hc
          · exact eq_of_beq hd
          · exact ih hc
      · simp at hc

theorem spaces_append (cs : List Char) :
    List.replicate (cs.takeWhile isSpace).length ' ' ++ cs.dropWhile isSpace = cs := by
  rw [← takeWhile_isSpace, List.takeWhile_append_dropWhile]

theorem readName_source {p : Place} {cs rest : List Char} {name : String}
    (h : readName p cs = .ok (name, rest)) : cs = name.toList ++ ' ' :: rest := by
  unfold readName at h
  have happ := List.takeWhile_append_dropWhile (p := isNameChar) (l := cs)
  generalize hd : cs.dropWhile isNameChar = d at h happ
  cases d with
  | nil => simp at h
  | cons c r =>
      simp only at h
      split at h
      · cases h
      · split at h
        · next hc =>
            injection h with h
            injection h with h₁ h₂
            rw [← h₁, ← h₂, String.toList_ofList, ← eq_of_beq hc, happ]
        · cases h

theorem splitAtClose_source {cs body rest : List Char}
    (h : splitAtClose cs = some (body, rest)) : cs = body ++ tagClose ++ rest := by
  induction cs generalizing body rest with
  | nil => simp [splitAtClose] at h
  | cons c cs ih =>
      rw [splitAtClose] at h
      split at h
      · next r hr =>
          cases h
          simpa using eq_append_of_isPrefixOf? hr
      · obtain ⟨⟨b, r⟩, hb, heq⟩ := Option.map_eq_some_iff.1 h
        cases heq
        rw [ih hb, List.cons_append, List.cons_append]

theorem readSubstitution_source {p : Place} {cs rest : List Char} {t : Tag}
    (h : readSubstitution p cs = .ok (t, rest)) :
    substitutionOpener ++ cs = t.source ++ rest := by
  unfold readSubstitution at h
  generalize hn : readName p (cs.dropWhile isSpace) = n at h
  cases n with
  | error e => simp [bind, Except.bind] at h
  | ok nr =>
      obtain ⟨name, after⟩ := nr
      simp only [bind, Except.bind] at h
      split at h
      · next tail htail =>
          injection h with h
          injection h with h₁ h₂
          subst h₁ h₂
          have h₁ := spaces_append cs
          have h₂ := readName_source hn
          have h₃ := spaces_append after
          have h₄ := eq_append_of_isPrefixOf? htail
          rw [source]
          conv => lhs; rw [← h₁, h₂, ← h₃, h₄]
          simp [List.append_assoc]
      · split at h
        · cases h
        · split at h <;> cases h

theorem readConditional_source {p : Place} {cs rest : List Char} {t : Tag}
    (h : readConditional p cs = .ok (t, rest)) :
    conditionalOpener ++ cs = t.source ++ rest := by
  unfold readConditional at h
  generalize hn : readName p (cs.dropWhile isSpace) = n at h
  cases n with
  | error e => simp [bind, Except.bind] at h
  | ok nr =>
      obtain ⟨name, after⟩ := nr
      simp only [bind, Except.bind] at h
      split at h
      · next body tail htail =>
          injection h with h
          injection h with h₁ h₂
          subst h₁ h₂
          have h₁ := spaces_append cs
          have h₂ := readName_source hn
          rw [source]
          conv => lhs; rw [← h₁, h₂, splitAtClose_source htail]
          simp [List.append_assoc]
      · cases h

/-- A tag that was read, followed by what was left, is the text it was read
from. -/
theorem read_source {pos : Nat} {cs rest : List Char} {t : Tag}
    (h : read? pos cs = some (.ok (t, rest))) : cs = t.source ++ rest := by
  unfold read? at h
  split at h
  · next r hr =>
      rw [eq_append_of_isPrefixOf? hr]
      exact readConditional_source (Option.some.inj h)
  · split at h
    · next r hr =>
        rw [eq_append_of_isPrefixOf? hr]
        exact readSubstitution_source (Option.some.inj h)
    · cases h

end Tag
end Loopsmith
