import Loopsmith.Text.Utf8
import Mathlib.Data.List.Basic

/-!
# Texts and their bytes

Decoding undoes encoding, so a text is known by its bytes, and it is at the head of another one if
its bytes are.  That decoding undoes encoding is settled for each of the four forms that a character
can have: what its first byte announces, and that the bytes behind it are in the ranges that this
byte asks for.

The bytes of a text can be searched for an ASCII character without decoding them.  Such a character
is a single byte, and this byte is part of no other character (`eq_byte_iff_of_mem`).  So taking
ASCII characters off the head of the bytes comes to the same as taking them off the text, and texts
can be put one behind another with zero bytes between them, and be told apart again as long as no
zero character is in them.

A number of bytes is a boundary if it is that of the first few characters (`IsBoundary`), and there
`splitAtByte?` divides the text.
-/

namespace Loopsmith
namespace Text

/-! ## Encoding -/

@[simp] theorem encode_append (a b : List Char) : encode (a ++ b) = encode a ++ encode b :=
  List.flatMap_append

theorem byteLength_pos {cs : List Char} (h : cs ≠ []) : 0 < byteLength cs := by
  cases cs with
  | nil => exact absurd rfl h
  | cons c cs => exact Nat.add_pos_left c.utf8Size_pos _

/-! ## Decoding -/

theorem readFollowing_ofNat {lo hi code n : Nat} (hlo : lo ≤ n) (hhi : n ≤ hi) (hn : n < 256)
    (rs : List (Nat × Nat)) (bs : List UInt8) :
    readFollowing ((lo, hi) :: rs) code (UInt8.ofNat n :: bs) =
      readFollowing rs (code * 64 + (n - 0x80)) bs := by
  rw [readFollowing, UInt8.toNat_ofNat_of_lt' hn, if_pos ⟨hlo, hhi⟩]

/-- A first byte and the bytes that have to follow it are read as the character that they give. -/
theorem units_of_leadByte {n bits code : Nat} {ranges : List (Nat × Nat)} {bs rest : List UInt8}
    {c : Char} (hn : n < 256) (h : leadByte n = some (bits, ranges))
    (hread : readFollowing ranges bits bs = (some code, rest)) (hcode : code = c.toNat) :
    units (UInt8.ofNat n :: bs) = some c :: units rest := by
  have hunit : readUnit (UInt8.ofNat n) bs = (some c, rest) := by
    rw [readUnit, UInt8.toNat_ofNat_of_lt' hn, h]
    dsimp only
    rw [hread, hcode, Option.map_some, Char.ofNat_toNat]
  rw [units, hunit]

theorem leadByte_two {v : Nat} (h : 0x7f < v) (h' : v ≤ 0x7ff) :
    leadByte (v / 64 % 0x20 + 0xc0) = some (v / 64, [(0x80, 0xBF)]) := by
  have hbits : v / 64 % 0x20 + 0xc0 - 0xC0 = v / 64 := by omega
  rw [leadByte, if_neg (by omega), if_pos (by omega), hbits]

theorem leadByte_three {v : Nat} (h : 0x7ff < v) (h' : v ≤ 0xffff)
    (hvalid : v < 0xD800 ∨ 0xDFFF < v) :
    ∃ lo hi, leadByte (v / 4096 % 0x10 + 0xe0) = some (v / 4096, [(lo, hi), (0x80, 0xBF)]) ∧
      lo ≤ v / 64 % 0x40 + 0x80 ∧ v / 64 % 0x40 + 0x80 ≤ hi := by
  have hbits : v / 4096 % 0x10 + 0xe0 - 0xE0 = v / 4096 := by omega
  rw [leadByte, if_neg (by omega), if_neg (by omega)]
  by_cases hlow : v / 4096 % 0x10 + 0xe0 = 0xE0
  · have hzero : v / 4096 = 0 := by omega
    rw [if_pos hlow, hzero]
    exact ⟨0xA0, 0xBF, rfl, by omega, by omega⟩
  · rw [if_neg hlow]
    by_cases hgap : v / 4096 % 0x10 + 0xe0 = 0xED
    · have hd : v / 4096 = 0xD := by omega
      rw [if_pos hgap, hd]
      exact ⟨0x80, 0x9F, rfl, by omega, by omega⟩
    · rw [if_neg hgap, if_pos (by omega), hbits]
      exact ⟨0x80, 0xBF, rfl, by omega, by omega⟩

theorem leadByte_four {v : Nat} (h : 0xffff < v) (h' : v < 0x110000) :
    ∃ lo hi, leadByte (v / 262144 % 0x08 + 0xf0) =
        some (v / 262144, [(lo, hi), (0x80, 0xBF), (0x80, 0xBF)]) ∧
      lo ≤ v / 4096 % 0x40 + 0x80 ∧ v / 4096 % 0x40 + 0x80 ≤ hi := by
  have hbits : v / 262144 % 0x08 + 0xf0 - 0xF0 = v / 262144 := by omega
  rw [leadByte, if_neg (by omega), if_neg (by omega), if_neg (by omega), if_neg (by omega),
    if_neg (by omega)]
  by_cases hlow : v / 262144 % 0x08 + 0xf0 = 0xF0
  · have hzero : v / 262144 = 0 := by omega
    rw [if_pos hlow, hzero]
    exact ⟨0x90, 0xBF, rfl, by omega, by omega⟩
  · rw [if_neg hlow]
    by_cases hmid : 0xF1 ≤ v / 262144 % 0x08 + 0xf0 ∧ v / 262144 % 0x08 + 0xf0 ≤ 0xF3
    · rw [if_pos hmid, hbits]
      exact ⟨0x80, 0xBF, rfl, by omega, by omega⟩
    · have hfour : v / 262144 = 4 := by omega
      rw [if_neg hmid, if_pos (by omega), hfour]
      exact ⟨0x80, 0x8F, rfl, by omega, by omega⟩

theorem units_utf8EncodeChar (c : Char) (bs : List UInt8) :
    units (String.utf8EncodeChar c ++ bs) = some c :: units bs := by
  have hvalid : c.val.toNat < 0xD800 ∨ 0xDFFF < c.val.toNat ∧ c.val.toNat < 0x110000 := c.valid
  rw [String.utf8EncodeChar]
  generalize hv : c.val.toNat = v at hvalid
  have hcode : v = c.toNat := hv.symm
  split
  · have hlead : leadByte v = some (v, []) := by
      rw [leadByte, if_pos (by omega)]
    exact units_of_leadByte (by omega) hlead rfl hcode
  · split
    · have hlead := leadByte_two (v := v) (by omega) (by omega)
      have hsum : v / 64 * 64 + (v % 0x40 + 0x80 - 0x80) = v := by omega
      simp only [List.cons_append, List.nil_append]
      refine units_of_leadByte (by omega) hlead ?_ hcode
      rw [readFollowing_ofNat (by omega) (by omega) (by omega), readFollowing, hsum]
    · split
      · obtain ⟨lo, hi, hlead, hlo, hhi⟩ := leadByte_three (v := v) (by omega) (by omega) (by omega)
        have hsum : (v / 4096 * 64 + (v / 64 % 0x40 + 0x80 - 0x80)) * 64 +
            (v % 0x40 + 0x80 - 0x80) = v := by omega
        simp only [List.cons_append, List.nil_append]
        refine units_of_leadByte (by omega) hlead ?_ hcode
        rw [readFollowing_ofNat hlo hhi (by omega),
          readFollowing_ofNat (by omega) (by omega) (by omega), readFollowing, hsum]
      · obtain ⟨lo, hi, hlead, hlo, hhi⟩ := leadByte_four (v := v) (by omega) (by omega)
        have hsum : ((v / 262144 * 64 + (v / 4096 % 0x40 + 0x80 - 0x80)) * 64 +
            (v / 64 % 0x40 + 0x80 - 0x80)) * 64 + (v % 0x40 + 0x80 - 0x80) = v := by omega
        simp only [List.cons_append, List.nil_append]
        refine units_of_leadByte (by omega) hlead ?_ hcode
        rw [readFollowing_ofNat hlo hhi (by omega),
          readFollowing_ofNat (by omega) (by omega) (by omega),
          readFollowing_ofNat (by omega) (by omega) (by omega), readFollowing, hsum]

/-- The characters of a text are read off the head of the bytes, whatever stands behind them. -/
theorem units_encode_append (cs : List Char) (bs : List UInt8) :
    units (encode cs ++ bs) = cs.map some ++ units bs := by
  induction cs with
  | nil => rfl
  | cons c cs ih =>
      rw [encode, List.flatMap_cons, List.append_assoc, units_utf8EncodeChar, List.map_cons,
        List.cons_append, ← ih]
      rfl

theorem units_encode (cs : List Char) : units (encode cs) = cs.map some := by
  have h := units_encode_append cs []
  rwa [units, List.append_nil, List.append_nil] at h

/-- Bytes read as the text that they encode. -/
theorem decode?_encode (cs : List Char) : decode? (encode cs) = some cs := by
  rw [decode?, units_encode, List.mapM_map]
  exact List.mapM_pure.trans (by simp)

/-- A text is at the head of another one exactly if its bytes are. -/
theorem encode_isPrefix_iff (a b : List Char) : encode a <+: encode b ↔ a <+: b := by
  constructor
  · rintro ⟨bs, h⟩
    have hunits := congrArg units h
    rw [units_encode_append, units_encode] at hunits
    obtain ⟨a', rest, rfl, ha, -⟩ := List.map_eq_append_iff.1 hunits.symm
    rw [← (List.map_inj_right fun _ _ => Option.some.inj).1 ha]
    exact List.prefix_append a' rest
  · rintro ⟨rest, rfl⟩
    exact ⟨encode rest, (encode_append a rest).symm⟩

theorem encode_injective {cs ds : List Char} (h : encode cs = encode ds) : cs = ds := by
  have hdecode := decode?_encode cs
  rw [h, decode?_encode, Option.some_inj] at hdecode
  exact hdecode.symm

theorem bytesOf_injective {a b : String} (h : bytesOf a = bytesOf b) : a = b :=
  String.toList_injective (encode_injective h)

/-! ## ASCII characters -/

/-- The byte of an ASCII character. -/
def byte (c : Char) : UInt8 :=
  UInt8.ofNat c.toNat

def IsAscii (c : Char) : Prop :=
  c.toNat < 0x80

instance (c : Char) : Decidable (IsAscii c) :=
  inferInstanceAs (Decidable (c.toNat < 0x80))

theorem toNat_byte {c : Char} (h : IsAscii c) : (byte c).toNat = c.toNat :=
  UInt8.toNat_ofNat_of_lt' (Nat.lt_trans h (by decide))

theorem utf8EncodeChar_of_isAscii {c : Char} (h : IsAscii c) :
    String.utf8EncodeChar c = [byte c] := by
  have hv : c.val.toNat ≤ 0x7f := Nat.le_of_lt_succ h
  rw [String.utf8EncodeChar, if_pos hv]
  rfl

theorem le_toNat_ofNat {n : Nat} (hn : 0x80 ≤ n) (hlt : n < 256) :
    0x80 ≤ (UInt8.ofNat n).toNat := by
  rwa [UInt8.toNat_ofNat_of_lt' hlt]

/-- All bytes of a character that is not ASCII have their highest bit set. -/
theorem le_toNat_of_mem {c : Char} (h : ¬ IsAscii c) {b : UInt8}
    (hb : b ∈ String.utf8EncodeChar c) : 0x80 ≤ b.toNat := by
  have hv : ¬ c.val.toNat ≤ 0x7f := fun hle => h (Nat.lt_succ_of_le hle)
  rw [String.utf8EncodeChar, if_neg hv] at hb
  split at hb
  · simp only [List.mem_cons, List.not_mem_nil, or_false] at hb
    rcases hb with rfl | rfl
    all_goals exact le_toNat_ofNat (by omega) (by omega)
  · split at hb
    · simp only [List.mem_cons, List.not_mem_nil, or_false] at hb
      rcases hb with rfl | rfl | rfl
      all_goals exact le_toNat_ofNat (by omega) (by omega)
    · simp only [List.mem_cons, List.not_mem_nil, or_false] at hb
      rcases hb with rfl | rfl | rfl | rfl
      all_goals exact le_toNat_ofNat (by omega) (by omega)

theorem ne_byte_of_le {b : UInt8} (hb : 0x80 ≤ b.toNat) {m : Char} (hm : IsAscii m) :
    b ≠ byte m := by
  rintro rfl
  rw [toNat_byte hm] at hb
  exact absurd hm (Nat.not_lt.2 hb)

theorem byte_inj {c m : Char} (hc : IsAscii c) (hm : IsAscii m) : byte c = byte m ↔ c = m := by
  constructor
  · intro h
    have hnat := congrArg UInt8.toNat h
    rw [toNat_byte hc, toNat_byte hm] at hnat
    exact Char.toNat_inj.1 hnat
  · exact congrArg byte

/-- The byte of an ASCII character is part of no other character. -/
theorem eq_byte_iff_of_mem {c m : Char} (hm : IsAscii m) {b : UInt8}
    (hb : b ∈ String.utf8EncodeChar c) : b = byte m ↔ c = m := by
  by_cases hc : IsAscii c
  · rw [utf8EncodeChar_of_isAscii hc, List.mem_singleton] at hb
    rw [hb, byte_inj hc hm]
  · refine iff_of_false (ne_byte_of_le (le_toNat_of_mem hc hb) hm) ?_
    rintro rfl
    exact hc hm

/-- The bytes behind the first one of a character are no ASCII characters, whatever the
character is. -/
theorem exists_utf8EncodeChar_eq_cons (c : Char) :
    ∃ b bs, String.utf8EncodeChar c = b :: bs ∧ ∀ d ∈ bs, 0x80 ≤ d.toNat := by
  by_cases hc : IsAscii c
  · exact ⟨byte c, [], utf8EncodeChar_of_isAscii hc, by simp⟩
  · have hlen := String.length_utf8EncodeChar c
    cases hbytes : String.utf8EncodeChar c with
    | nil =>
        rw [hbytes] at hlen
        exact absurd hlen.symm (Nat.pos_iff_ne_zero.1 c.utf8Size_pos)
    | cons b bs =>
        refine ⟨b, bs, rfl, fun d hd => le_toNat_of_mem hc ?_⟩
        rw [hbytes]
        exact List.mem_cons_of_mem b hd

theorem encode_cons (c : Char) (cs : List Char) :
    encode (c :: cs) = String.utf8EncodeChar c ++ encode cs := rfl

theorem encode_cons_of_isAscii {c : Char} (h : IsAscii c) (cs : List Char) :
    encode (c :: cs) = byte c :: encode cs := by
  rw [encode_cons, utf8EncodeChar_of_isAscii h]
  rfl

/-- A test of bytes that comes to a test of characters: it fails for all bytes that are not
ASCII. -/
def Tests (f : UInt8 → Bool) (g : Char → Bool) : Prop :=
  (∀ c, IsAscii c → f (byte c) = g c) ∧ (∀ b : UInt8, 0x80 ≤ b.toNat → f b = false) ∧
    ∀ c, ¬ IsAscii c → g c = false

/-- Taking bytes off takes characters off. -/
theorem takeWhile_encode {f : UInt8 → Bool} {g : Char → Bool} (h : Tests f g) (cs : List Char) :
    (encode cs).takeWhile f = encode (cs.takeWhile g) := by
  obtain ⟨hascii, hhigh, hnot⟩ := h
  induction cs with
  | nil => rfl
  | cons c cs ih =>
      rw [List.takeWhile_cons]
      by_cases hc : IsAscii c
      · rw [encode_cons_of_isAscii hc, List.takeWhile_cons, hascii c hc, ih]
        split
        · rw [encode_cons_of_isAscii hc]
        · rfl
      · obtain ⟨b, bs, hbytes, -⟩ := exists_utf8EncodeChar_eq_cons c
        have hb : f b = false :=
          hhigh b (le_toNat_of_mem hc (by rw [hbytes]; exact List.mem_cons_self))
        rw [encode_cons, hbytes, List.cons_append, List.takeWhile_cons, hb, hnot c hc]
        rfl

/-! ## Zero bytes -/

theorem zero_not_mem_bytesOf {s : String} (h : '\x00' ∉ s.toList) : 0 ∉ bytesOf s := by
  intro hzero
  obtain ⟨c, hc, hmem⟩ := List.mem_flatMap.1 hzero
  have hnul : IsAscii '\x00' := by decide
  rw [(eq_byte_iff_of_mem hnul hmem).1 rfl] at hc
  exact h hc

/-- A separator that the last parts do not contain divides a list in one way only. -/
theorem append_cons_inj_of_not_mem {α : Type} {sep : α} {a b a' b' : List α} (hb : sep ∉ b)
    (hb' : sep ∉ b') (h : a ++ sep :: b = a' ++ sep :: b') : a = a' ∧ b = b' := by
  rcases List.append_eq_append_iff.1 h with ⟨c, ha, hc⟩ | ⟨c, ha, hc⟩
  · rcases List.cons_eq_append_iff.1 hc with ⟨rfl, htail⟩ | ⟨d, -, htail⟩
    · exact ⟨by simpa using ha.symm, by simpa using htail.symm⟩
    · exact absurd (by simp [htail]) hb
  · rcases List.cons_eq_append_iff.1 hc with ⟨rfl, htail⟩ | ⟨d, -, htail⟩
    · exact ⟨by simpa using ha, by simpa using htail⟩
    · exact absurd (by simp [htail]) hb'

/-! ## Boundaries -/

/-- The number of bytes of the first few characters of a text. -/
def IsBoundary (cs : List Char) (n : Nat) : Prop :=
  ∃ a b, cs = a ++ b ∧ n = byteLength a

@[simp] theorem splitAtByte?_append (a b : List Char) :
    splitAtByte? (byteLength a) (a ++ b) = some (a, b) := by
  induction a with
  | nil => exact splitAtByte?.eq_1 b
  | cons c a ih =>
      have hpos := c.utf8Size_pos
      obtain ⟨n, hn⟩ : ∃ n, byteLength (c :: a) = n + 1 :=
        Nat.exists_eq_succ_of_ne_zero (by rw [byteLength_cons]; omega)
      have hrest : n + 1 - c.utf8Size = byteLength a := by
        rw [← hn, byteLength_cons, Nat.add_sub_cancel_left]
      rw [hn, List.cons_append, splitAtByte?, if_pos, hrest, ih]
      · rfl
      · rw [← hn, byteLength_cons]
        exact Nat.le_add_right _ _

theorem drop_encode (a b : List Char) : (encode (a ++ b)).drop (byteLength a) = encode b := by
  rw [encode_append, List.drop_left' (length_encode a)]

end Text
end Loopsmith
