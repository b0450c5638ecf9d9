import Loopsmith.Template.Tag

/-!
# Lexical items

Source code hides tags inside its string literals, character literals and
comments, so a template is first cut into items: a tag, a literal or comment as
a whole, or a single character where none of these begins.  Where a tag opener
stands, only the tag is read there, whatever else the characters might be.

A literal ends at its first quote that no backslash hides, a line comment at the
newline, and a block comment at the first `*/` that does not directly follow a
`>`; the exception keeps a commented-out tag inside its comment.  One that never
ends takes the rest of the text, and is marked as not closed.
-/

namespace Loopsmith

inductive Item where
  | char (c : Char)
  /-- A literal or a comment, delimiters included. -/
  | enclosed (text : List Char) (closed : Bool)
  | tag (t : Tag)
  deriving DecidableEq, Repr

/-- The head of a text up to a terminator, and what comes after it. -/
structure Enclosed where
  text : List Char
  closed : Bool
  rest : List Char
  deriving DecidableEq, Repr

namespace Enclosed

def cons (c : Char) (e : Enclosed) : Enclosed :=
  { e with text := c :: e.text }

@[simp] theorem text_cons (c : Char) (e : Enclosed) : (e.cons c).text = c :: e.text := rfl

@[simp] theorem rest_cons (c : Char) (e : Enclosed) : (e.cons c).rest = e.rest := rfl

@[simp] theorem closed_cons (c : Char) (e : Enclosed) : (e.cons c).closed = e.closed := rfl

/-- Reads up to the quote `q`; a backslash hides the character after it. -/
def literal (q : Char) : List Char → Enclosed
  | [] => ⟨[], false, []⟩
  | [c] => if c == q then ⟨[c], true, []⟩ else ⟨[c], false, []⟩
  | c :: d :: cs =>
      if c == '\\' then ((literal q cs).cons d).cons c
      else if c == q then ⟨[c], true, d :: cs⟩
      else (literal q (d :: cs)).cons c

/-- Reads through the end of the line. -/
def line : List Char → Enclosed
  | [] => ⟨[], false, []⟩
  | c :: cs => if c == '\n' then ⟨[c], true, cs⟩ else (line cs).cons c

/-- Reads up to a `*/` that does not directly follow a `>`, where `before` is the
character in front of the text. -/
def block (before : Char) : List Char → Enclosed
  | [] => ⟨[], false, []⟩
  | [c] => ⟨[c], false, []⟩
  | c :: d :: cs =>
      if c == '*' && d == '/' && before != '>' then ⟨[c, d], true, cs⟩
      else (block c (d :: cs)).cons c

theorem literal_source (q : Char) (cs : List Char) :
    (literal q cs).text ++ (literal q cs).rest = cs := by
  fun_induction literal q cs <;> simp_all

theorem line_source (cs : List Char) : (line cs).text ++ (line cs).rest = cs := by
  fun_induction line cs <;> simp_all

theorem block_source (before : Char) (cs : List Char) :
    (block before cs).text ++ (block before cs).rest = cs := by
  fun_induction block before cs <;> simp_all

end Enclosed

namespace Item

/-- The text the item was read from. -/
def source : Item → List Char
  | char c => [c]
  | enclosed text _ => text
  | tag t => t.source

/-- Whether the item ended at its terminator, not for want of text. -/
def closed : Item → Bool
  | enclosed _ closed => closed
  | _ => true

/-- The item that consists of `opener` and an enclosed text. -/
def ofEnclosed (opener : List Char) (e : Enclosed) : Item × List Char :=
  (enclosed (opener ++ e.text) e.closed, e.rest)

/-- The item at the head of `c :: cs` where no tag opens, and the text after
it. -/
def readPlain (c : Char) (cs : List Char) : Item × List Char :=
  if c == '\'' || c == '"' then ofEnclosed [c] (Enclosed.literal c cs)
  else
    match c, cs with
    | '/', '/' :: rest => ofEnclosed ['/', '/'] (Enclosed.line rest)
    | '/', '*' :: rest => ofEnclosed ['/', '*'] (Enclosed.block '*' rest)
    | _, _ => (char c, cs)

/-- The item at the head of `c :: cs`, which starts at byte `pos` of the text and
runs to its end. -/
def read (pos : Nat) (c : Char) (cs : List Char) : Except TagError (Item × List Char) :=
  match Tag.read? pos (c :: cs) with
  | some (.ok (t, rest)) => .ok (tag t, rest)
  | some (.error e) => .error e
  | none => .ok (readPlain c cs)

theorem readPlain_source (c : Char) (cs : List Char) :
    (readPlain c cs).1.source ++ (readPlain c cs).2 = c :: cs := by
  unfold readPlain
  split
  · simp [ofEnclosed, source, Enclosed.literal_source]
  · split
    · simp [ofEnclosed, source, Enclosed.line_source]
    · simp [ofEnclosed, source, Enclosed.block_source]
    · simp [source]

theorem readPlain_source_ne_nil (c : Char) (cs : List Char) :
    (readPlain c cs).1.source ≠ [] := by
  unfold readPlain
  split
  · simp [ofEnclosed, source]
  · split <;> simp [ofEnclosed, source]

theorem read_source {pos : Nat} {c : Char} {cs rest : List Char} {i : Item}
    (h : read pos c cs = .ok (i, rest)) : i.source ++ rest = c :: cs := by
  unfold read at h
  split at h
  · next t r ht =>
      cases h
      exact (Tag.read_source ht).symm
  · cases h
  · injection h with h
    simpa [h] using readPlain_source c cs

theorem read_source_ne_nil {pos : Nat} {c : Char} {cs rest : List Char} {i : Item}
    (h : read pos c cs = .ok (i, rest)) : i.source ≠ [] := by
  unfold read at h
  split at h
  · cases h
    exact Tag.source_ne_nil _
  · cases h
  · injection h with h
    simpa [h] using readPlain_source_ne_nil c cs

theorem length_lt_of_read {pos : Nat} {c : Char} {cs rest : List Char} {i : Item}
    (h : read pos c cs = .ok (i, rest)) : rest.length < (c :: cs).length := by
  have hpos := List.length_pos_iff.2 (read_source_ne_nil h)
  rw [← read_source h, List.length_append]
  omega

/-- Cuts a text that starts at byte `pos` into items. -/
def scan (pos : Nat) : List Char → Except TagError (List Item)
  | [] => .ok []
  | c :: cs =>
      match _h : read pos c cs with
      | .error e => .error e
      | .ok (i, rest) =>
          match scan (pos + Text.byteLength i.source) rest with
          | .error e => .error e
          | .ok is => .ok (i :: is)
termination_by cs => cs.length
decreasing_by exact length_lt_of_read _h

end Item
end Loopsmith
