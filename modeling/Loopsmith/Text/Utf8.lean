/-!
# UTF-8

Positions in a template are byte offsets, files hold bytes, and the bytes that a
compiler prints need not be text at all.  This file has the three things that
follow from that: the size of a text in bytes, its encoding, and a reader that
splits any byte list into characters and ill-formed stretches.

A stretch that is not part of any character is cut as short as possible: it ends
before the first byte that could not continue the character begun, so that byte
is read afresh.  `decode?` accepts a byte list without such stretches, and
`decodeLossy` writes the replacement character for each one.
-/

namespace Loopsmith
namespace Text

/-- The number of bytes of a text in UTF-8. -/
def byteLength : List Char → Nat
  | [] => 0
  | c :: cs => c.utf8Size + byteLength cs

@[simp] theorem byteLength_nil : byteLength [] = 0 := rfl

@[simp] theorem byteLength_cons (c : Char) (cs : List Char) :
    byteLength (c :: cs) = c.utf8Size + byteLength cs := rfl

@[simp] theorem byteLength_append (a b : List Char) :
    byteLength (a ++ b) = byteLength a + byteLength b := by
  induction a with
  | nil => simp
  | cons c cs ih => simp [ih, Nat.add_assoc]

/-- Divides a text after its first `n` bytes, unless that is inside a character or behind
its end. -/
def splitAtByte? : Nat → List Char → Option (List Char × List Char)
  | 0, cs => some ([], cs)
  | _ + 1, [] => none
  | n + 1, c :: cs =>
      if c.utf8Size ≤ n + 1 then
        (splitAtByte? (n + 1 - c.utf8Size) cs).map fun (a, b) => (c :: a, b)
      else none

def encode (cs : List Char) : List UInt8 :=
  cs.flatMap String.utf8EncodeChar

theorem length_encode (cs : List Char) : (encode cs).length = byteLength cs := by
  induction cs with
  | nil => rfl
  | cons c cs ih =>
      simp only [encode, List.flatMap_cons, List.length_append,
        String.length_utf8EncodeChar, byteLength_cons]
      exact congrArg (c.utf8Size + ·) ih

/-! ## Reading bytes -/

/-- What a first byte announces: the bits it contributes, and for each byte that
has to follow the range it must lie in.  The narrowed second ranges leave out
overlong forms, surrogates and values above the last code point. -/
def leadByte (b : Nat) : Option (Nat × List (Nat × Nat)) :=
  if b < 0x80 then some (b, [])
  else if 0xC2 ≤ b ∧ b ≤ 0xDF then some (b - 0xC0, [(0x80, 0xBF)])
  else if b = 0xE0 then some (0, [(0xA0, 0xBF), (0x80, 0xBF)])
  else if b = 0xED then some (0xD, [(0x80, 0x9F), (0x80, 0xBF)])
  else if 0xE1 ≤ b ∧ b ≤ 0xEF then some (b - 0xE0, [(0x80, 0xBF), (0x80, 0xBF)])
  else if b = 0xF0 then some (0, [(0x90, 0xBF), (0x80, 0xBF), (0x80, 0xBF)])
  else if 0xF1 ≤ b ∧ b ≤ 0xF3 then
    some (b - 0xF0, [(0x80, 0xBF), (0x80, 0xBF), (0x80, 0xBF)])
  else if b = 0xF4 then some (4, [(0x80, 0x8F), (0x80, 0xBF), (0x80, 0xBF)])
  else none

/-- Reads the bytes that must follow, stopping before the first that does not
fit. -/
def readFollowing : List (Nat × Nat) → Nat → List UInt8 → Option Nat × List UInt8
  | [], code, bs => (some code, bs)
  | _ :: _, _, [] => (none, [])
  | r :: rs, code, b :: bs =>
      if r.1 ≤ b.toNat ∧ b.toNat ≤ r.2 then
        readFollowing rs (code * 64 + (b.toNat - 0x80)) bs
      else (none, b :: bs)

theorem length_readFollowing_le (rs : List (Nat × Nat)) (code : Nat) (bs : List UInt8) :
    (readFollowing rs code bs).2.length ≤ bs.length := by
  induction rs generalizing code bs with
  | nil => simp [readFollowing]
  | cons r rs ih =>
      cases bs with
      | nil => simp [readFollowing]
      | cons b bs =>
          rw [readFollowing]
          split
          · exact Nat.le_succ_of_le (ih _ _)
          · simp

/-- The character or ill-formed stretch (`none`) that starts at byte `b`, and the
bytes after it. -/
def readUnit (b : UInt8) (bs : List UInt8) : Option Char × List UInt8 :=
  match leadByte b.toNat with
  | none => (none, bs)
  | some (bits, ranges) =>
      let (code, rest) := readFollowing ranges bits bs
      (code.map Char.ofNat, rest)

theorem length_readUnit_le (b : UInt8) (bs : List UInt8) :
    (readUnit b bs).2.length ≤ bs.length := by
  unfold readUnit
  split
  · simp
  · exact length_readFollowing_le _ _ _

/-- All characters and ill-formed stretches of a byte list, in order. -/
def units : List UInt8 → List (Option Char)
  | [] => []
  | b :: bs => (readUnit b bs).1 :: units (readUnit b bs).2
termination_by bs => bs.length
decreasing_by exact Nat.lt_succ_of_le (length_readUnit_le b bs)

/-- The text a byte list encodes, if it encodes one. -/
def decode? (bs : List UInt8) : Option (List Char) :=
  (units bs).mapM id

def replacement : Char := '\uFFFD'

def decodeLossy (bs : List UInt8) : List Char :=
  (units bs).map (·.getD replacement)

/-- The bytes of a string. -/
def bytesOf (s : String) : List UInt8 :=
  encode s.toList

end Text
end Loopsmith
