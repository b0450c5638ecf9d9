import Loopsmith.Proofs.Template.Walker

/-!
# Passing over bytes

What the operations of the walker come to on the bytes of a text: the same as the reader of
characters with which an item is read, counted in bytes.  So each of them is stated for a text
`a ++ cs` and the position behind `a`.

Literals and comments need some care, since the index is between the bytes of a character most of
the time.  A character that matters is ASCII, so it is a single byte, and the bytes of all others
are passed one by one; a backslash may even leave the index behind the first byte of the character
that it hides.
-/

namespace Loopsmith

open Text (byteLength encode byte IsAscii)

/-! ## Access between characters -/

namespace Text

theorem bytesFrom_append (a b : List Char) :
    bytesFrom (encode (a ++ b)) (byteLength a) = .ok (encode b) := by
  rw [bytesFrom, if_pos, drop_encode]
  rw [length_encode, byteLength_append]
  exact Nat.le_add_right _ _

theorem textFrom_append (a b : List Char) : textFrom (a ++ b) (byteLength a) = .ok b := by
  rw [textFrom, splitAtByte?_append]

theorem textIn_append (a m b : List Char) :
    textIn (a ++ m ++ b) (Span.ofWidth (byteLength a) (byteLength m)) = .ok m := by
  rw [textIn, Span.ofWidth]
  dsimp only
  rw [← byteLength_append, splitAtByte?_append]
  exact textFrom_append a m

theorem charAt?_append (a b : List Char) : charAt? (a ++ b) (byteLength a) = b.head? := by
  rw [charAt?, splitAtByte?_append]
  rfl

theorem getElem?_encode (a b : List Char) (n : Nat) :
    (encode (a ++ b))[byteLength a + n]? = (encode b)[n]? := by
  rw [← drop_encode a b, List.getElem?_drop]

theorem skipWhile_eq (f : UInt8 → Bool) (bytes : List UInt8) (pos : Nat) :
    skipWhile f bytes pos = pos + ((bytes.drop pos).takeWhile f).length := by
  fun_induction skipWhile f bytes pos with
  | case1 pos h hf ih =>
      rw [ih, List.drop_eq_getElem_cons h, List.takeWhile_cons, if_pos hf, List.length_cons]
      omega
  | case2 pos h hf =>
      rw [List.drop_eq_getElem_cons h, List.takeWhile_cons, if_neg hf]
      rfl
  | case3 pos h =>
      rw [List.drop_eq_nil_of_le (Nat.not_lt.1 h)]
      rfl

theorem skipWhile_append {f : UInt8 → Bool} {g : Char → Bool} (h : Tests f g) (a cs : List Char) :
    skipWhile f (encode (a ++ cs)) (byteLength a) = byteLength (a ++ cs.takeWhile g) := by
  rw [skipWhile_eq, drop_encode, takeWhile_encode h, length_encode, byteLength_append]

theorem offsetOf?_tagClose (cs : List Char) :
    offsetOf? tagClose cs = (Tag.splitAtClose cs).map fun p => byteLength p.1 := by
  induction cs with
  | nil => rfl
  | cons c cs ih =>
      rw [offsetOf?, Tag.splitAtClose]
      cases hclose : tagClose.isPrefixOf? (c :: cs) with
      | none =>
          rw [if_neg, ih, Option.map_map, Option.map_map]
          · rfl
          · rw [List.isPrefixOf_iff_prefix]
            exact Tag.isPrefixOf?_eq_none_iff.1 hclose
      | some rest =>
          rw [if_pos]
          · rfl
          · rw [List.isPrefixOf_iff_prefix, Tag.eq_append_of_isPrefixOf? hclose]
            exact List.prefix_append _ _

theorem lt_length_of_drop_eq_cons {bytes tail : List UInt8} {pos : Nat} {b : UInt8}
    (h : bytes.drop pos = b :: tail) : pos < bytes.length := by
  by_contra hle
  rw [List.drop_eq_nil_of_le (Nat.not_lt.1 hle)] at h
  cases h

theorem byteAt_of_drop {bytes tail : List UInt8} {pos : Nat} {b : UInt8}
    (h : bytes.drop pos = b :: tail) : byteAt bytes pos = .ok b := by
  have hget : bytes[pos]? = some b := by
    rw [← List.head?_drop, h]
    rfl
  rw [byteAt, hget]

/-- The last byte of a character in front of a text. -/
theorem exists_drop_eq_last (a : List Char) (c : Char) (cs : List Char) :
    ∃ n b, byteLength (a ++ [c]) = n + 1 ∧ b ∈ String.utf8EncodeChar c ∧
      (encode (a ++ c :: cs)).drop n = b :: encode cs := by
  have hne : String.utf8EncodeChar c ≠ [] := by
    obtain ⟨b, bs, hbytes, -⟩ := exists_utf8EncodeChar_eq_cons c
    rw [hbytes]
    exact List.cons_ne_nil b bs
  obtain ⟨front, last, hlast⟩ : ∃ front last, String.utf8EncodeChar c = front ++ [last] :=
    ⟨_, _, (List.dropLast_append_getLast hne).symm⟩
  refine ⟨(encode a ++ front).length, last, ?_, ?_, ?_⟩
  · have hsize := String.length_utf8EncodeChar c
    rw [hlast, List.length_append, List.length_singleton] at hsize
    rw [byteLength_append, byteLength_cons, byteLength_nil, ← hsize, List.length_append,
      length_encode]
    omega
  · rw [hlast]
    exact List.mem_append_right _ List.mem_cons_self
  · rw [encode_append, encode_cons, hlast, List.append_assoc, ← List.append_assoc, List.drop_left]
    rfl

end Text

/-! ## Literals and comments between characters -/

namespace Enclosure

/-- The reader of what follows the opener. -/
def read : Enclosure → List Char → Enclosed
  | character => Enclosed.literal '\''
  | string => Enclosed.literal '"'
  | line => Enclosed.line
  | block => Enclosed.block '*'

theorem cut_read (k : Enclosure) (cs : List Char) : Cut k.Ends cs (k.read cs) := by
  cases k with
  | character => exact cut_literal (by decide) cs
  | string => exact cut_literal (by decide) cs
  | line => exact cut_line cs
  | block => exact cut_block '*' cs

theorem not_ends_nil (k : Enclosure) : ¬ k.Ends [] := by
  cases k with
  | character => exact not_endsLiteral_nil _
  | string => exact not_endsLiteral_nil _
  | line => exact not_endsLine_nil
  | block => exact not_endsBlock_of_length (by simp)

/-- There is something in a literal or comment behind its opener, unless the text ends there. -/
theorem text_read_ne_nil (k : Enclosure) {cs : List Char} (h : cs ≠ []) :
    (k.read cs).text ≠ [] := by
  have hcut := k.cut_read cs
  generalize k.read cs = e at hcut
  cases hcut with
  | @closed text rest _ hfirst =>
      rintro rfl
      exact k.not_ends_nil hfirst.1
  | unclosed => exact h

section Literal

variable {q : UInt8} {bytes tail : List UInt8} {pos : Nat}

theorem passLiteral_cons {b : UInt8} (h : bytes.drop pos = b :: tail) :
    passLiteral q bytes pos =
      if b = byte '\\' then passLiteral q bytes (min (pos + 1 + 1) bytes.length)
      else if b = q then (pos + 1, true)
      else passLiteral q bytes (pos + 1) := by
  have hlt := Text.lt_length_of_drop_eq_cons h
  rw [List.drop_eq_getElem_cons hlt] at h
  obtain ⟨rfl, -⟩ := List.cons.inj h
  rw [passLiteral, dif_pos hlt]

theorem passLiteral_nil (h : bytes.drop pos = []) : passLiteral q bytes pos = (pos, false) := by
  rw [passLiteral, dif_neg (Nat.not_lt.2 (List.drop_eq_nil_iff.1 h))]

/-- Bytes that are neither the quote nor a backslash are passed. -/
theorem passLiteral_skip {bs : List UInt8} (h : bytes.drop pos = bs ++ tail)
    (hbs : ∀ b ∈ bs, b ≠ byte '\\' ∧ b ≠ q) :
    passLiteral q bytes pos = passLiteral q bytes (pos + bs.length) := by
  induction bs generalizing pos with
  | nil => rfl
  | cons b bs ih =>
      obtain ⟨⟨hslash, hquote⟩, hbs⟩ := List.forall_mem_cons.1 hbs
      have hnext : bytes.drop (pos + 1) = bs ++ tail := by
        rw [← List.drop_drop, h]
        rfl
      rw [passLiteral_cons h, if_neg hslash, if_neg hquote, ih hnext hbs, List.length_cons,
        Nat.add_assoc, Nat.add_comm 1]

theorem passLiteral_end (a : List Char) :
    passLiteral q (encode a) (byteLength a) = (byteLength a, false) :=
  passLiteral_nil (List.drop_eq_nil_of_le (Text.length_encode a).le)

/-- A backslash and the first byte of the character behind it are passed together, and the other
bytes of this character one by one. -/
theorem passLiteral_hidden {q : Char} (hq : IsAscii q) (a cs : List Char) (d : Char) :
    passLiteral (byte q) (encode (a ++ '\\' :: d :: cs)) (byteLength a) =
      passLiteral (byte q) (encode (a ++ '\\' :: d :: cs)) (byteLength (a ++ ['\\', d])) := by
  have hslash : IsAscii '\\' := by decide
  obtain ⟨b, bs, hbytes, hbs⟩ := Text.exists_utf8EncodeChar_eq_cons d
  have hsize : d.utf8Size = bs.length + 1 := by
    rw [← String.length_utf8EncodeChar, hbytes, List.length_cons]
  have hdrop := Text.drop_encode a ('\\' :: d :: cs)
  rw [Text.encode_cons_of_isAscii hslash, Text.encode_cons, hbytes] at hdrop
  have hbehind : (encode (a ++ '\\' :: d :: cs)).drop (byteLength a + 1 + 1) =
      bs ++ encode cs := by
    rw [Nat.add_assoc, ← List.drop_drop, hdrop]
    rfl
  have hle : byteLength a + 1 + 1 ≤ (encode (a ++ '\\' :: d :: cs)).length := by
    have hlen := congrArg List.length hdrop
    rw [List.length_drop, List.length_cons, List.cons_append, List.length_cons] at hlen
    omega
  have hpos : byteLength (a ++ ['\\', d]) = byteLength a + 1 + 1 + bs.length := by
    have hone : '\\'.utf8Size = 1 := by decide
    rw [Text.byteLength_append, Text.byteLength_cons, Text.byteLength_cons, Text.byteLength_nil,
      hsize, hone]
    omega
  rw [passLiteral_cons hdrop, if_pos rfl, Nat.min_eq_left hle, hpos]
  exact passLiteral_skip hbehind fun b hb =>
    ⟨Text.ne_byte_of_le (hbs b hb) hslash, Text.ne_byte_of_le (hbs b hb) hq⟩

/-- A backslash that has nothing to hide is the end. -/
theorem passLiteral_last (a : List Char) :
    passLiteral q (encode (a ++ ['\\'])) (byteLength a) = (byteLength (a ++ ['\\']), false) := by
  have hdrop := Text.drop_encode a ['\\']
  rw [Text.encode_cons_of_isAscii (by decide)] at hdrop
  have hmin : min (byteLength a + 1 + 1) (encode (a ++ ['\\'])).length =
      byteLength (a ++ ['\\']) := by
    rw [Text.length_encode, Text.byteLength_append]
    exact Nat.min_eq_right (Nat.le_succ _)
  rw [passLiteral_cons hdrop, if_pos rfl, hmin, passLiteral_end]

theorem passLiteral_other {q c : Char} (hq : IsAscii q) (hc : c ≠ '\\') (hcq : c ≠ q)
    (a cs : List Char) :
    passLiteral (byte q) (encode (a ++ c :: cs)) (byteLength a) =
      passLiteral (byte q) (encode (a ++ c :: cs)) (byteLength (a ++ [c])) := by
  rw [passLiteral_skip (Text.drop_encode a (c :: cs)) fun b hb =>
    ⟨fun h => hc ((Text.eq_byte_iff_of_mem (by decide) hb).1 h),
      fun h => hcq ((Text.eq_byte_iff_of_mem hq hb).1 h)⟩,
    String.length_utf8EncodeChar, Text.byteLength_append, Text.byteLength_cons,
    Text.byteLength_nil, Nat.add_zero]

theorem passLiteral_quote {q : Char} (hq : IsAscii q) (hne : q ≠ '\\') (a cs : List Char) :
    passLiteral (byte q) (encode (a ++ q :: cs)) (byteLength a) =
      (byteLength (a ++ [q]), true) := by
  have hdrop := Text.drop_encode a (q :: cs)
  rw [Text.encode_cons_of_isAscii hq] at hdrop
  have hbyte : byte q ≠ byte '\\' := fun h => hne ((Text.byte_inj hq (by decide)).1 h)
  rw [passLiteral_cons hdrop, if_neg hbyte, if_pos rfl, Text.byteLength_append,
    ← Text.length_encode [q], Text.encode_cons_of_isAscii hq]
  rfl

theorem passLiteral_append {q : Char} (hq : IsAscii q) (hne : q ≠ '\\') (a cs : List Char) :
    passLiteral (byte q) (encode (a ++ cs)) (byteLength a) =
      (byteLength (a ++ (Enclosed.literal q cs).text), (Enclosed.literal q cs).closed) := by
  fun_induction Enclosed.literal q cs generalizing a with
  | case1 =>
      rw [List.append_nil]
      exact passLiteral_end a
  | case2 c hc =>
      cases eq_of_beq hc
      exact passLiteral_quote hq hne a []
  | case3 c hc =>
      by_cases hb : c = '\\'
      · subst hb
        exact passLiteral_last a
      · rw [passLiteral_other hq hb (by simpa using hc)]
        exact passLiteral_end (a ++ [c])
  | case4 c d cs hc ih =>
      cases eq_of_beq hc
      rw [passLiteral_hidden hq]
      have h := ih (a ++ ['\\', d])
      rwa [List.append_assoc, List.append_assoc] at h
  | case5 c d cs _ hc =>
      cases eq_of_beq hc
      exact passLiteral_quote hq hne a (d :: cs)
  | case6 c d cs hb hc ih =>
      rw [passLiteral_other hq (by simpa using hb) (by simpa using hc)]
      have h := ih (a ++ [c])
      rwa [List.append_assoc, List.append_assoc] at h

end Literal

theorem findIdx?_newline (cs : List Char) :
    ((encode cs).findIdx? (· == byte '\n')).map (· + 1) =
      if (Enclosed.line cs).closed then some (byteLength (Enclosed.line cs).text) else none := by
  fun_induction Enclosed.line cs with
  | case1 => rfl
  | case2 c cs hc =>
      cases eq_of_beq hc
      rw [Text.encode_cons_of_isAscii (by decide), List.findIdx?_cons, if_pos (beq_self_eq_true _)]
      rfl
  | case3 c cs hc ih =>
      have hnone : (String.utf8EncodeChar c).findIdx? (· == byte '\n') = none := by
        rw [List.findIdx?_eq_none_iff]
        intro b hb
        have hne : b ≠ byte '\n' := fun h =>
          hc (beq_iff_eq.2 ((Text.eq_byte_iff_of_mem (by decide) hb).1 h))
        exact beq_eq_false_iff_ne.2 hne
      have hmap : ∀ o : Option Nat, (o.map (· + (String.utf8EncodeChar c).length)).map (· + 1) =
          (o.map (· + 1)).map (c.utf8Size + ·) := by
        intro o
        rw [Option.map_map, Option.map_map, String.length_utf8EncodeChar]
        congr 1
        funext n
        change n + c.utf8Size + 1 = c.utf8Size + (n + 1)
        omega
      rw [Text.encode_cons, List.findIdx?_append, hnone, Option.none_or, hmap, ih,
        Enclosed.closed_cons, Enclosed.text_cons]
      split
      · rfl
      · rfl

theorem eq_of_cut_unclosed {Ends : List Char → Prop} {cs : List Char} {e : Enclosed}
    (h : Cut Ends cs e) (hclosed : e.closed = false) : e = ⟨cs, false, []⟩ := by
  cases h with
  | closed => cases hclosed
  | unclosed => rfl

theorem passLine_append (a cs : List Char) :
    passLine (encode (a ++ cs)) (byteLength a) =
      .ok (byteLength (a ++ (Enclosed.line cs).text), (Enclosed.line cs).closed) := by
  have hfind := findIdx?_newline cs
  rw [passLine, Text.bytesFrom_append]
  dsimp only [bind, Except.bind]
  cases hclosed : (Enclosed.line cs).closed with
  | false =>
      rw [hclosed, if_neg Bool.false_ne_true, Option.map_eq_none_iff] at hfind
      rw [hfind, eq_of_cut_unclosed (cut_line cs) hclosed, Text.length_encode]
      rfl
  | true =>
      rw [hclosed, if_pos rfl] at hfind
      obtain ⟨n, hn, hlen⟩ := Option.map_eq_some_iff.1 hfind
      rw [hn, Text.byteLength_append, ← hlen, ← Nat.add_assoc]
      rfl

section Block

variable {bytes tail : List UInt8} {pos : Nat}

theorem endsAt_of_ne_star {b : UInt8} (h : bytes.drop pos = b :: tail) (hb : b ≠ byte '*') :
    endsAt bytes pos = .ok false := by
  rw [endsAt, Text.byteAt_of_drop h]
  dsimp only [bind, Except.bind]
  rw [if_pos hb]
  rfl

theorem endsAt_of_ne_slash {b : UInt8} (h : bytes.drop pos = byte '*' :: b :: tail)
    (hb : b ≠ byte '/') : endsAt bytes pos = .ok false := by
  have hnext : bytes.drop (pos + 1) = b :: tail := by
    rw [← List.drop_drop, h]
    rfl
  rw [endsAt, Text.byteAt_of_drop h, Text.byteAt_of_drop hnext]
  dsimp only [bind, Except.bind]
  rw [if_neg (not_not_intro rfl), if_pos hb]
  rfl

theorem endsAt_of_drop {b : UInt8} (h : bytes.drop pos = b :: byte '*' :: byte '/' :: tail) :
    endsAt bytes (pos + 1) = .ok (decide (b ≠ byte '>')) := by
  have hstar : bytes.drop (pos + 1) = byte '*' :: byte '/' :: tail := by
    rw [← List.drop_drop, h]
    rfl
  have hslash : bytes.drop (pos + 1 + 1) = byte '/' :: tail := by
    rw [← List.drop_drop, hstar]
    rfl
  rw [endsAt, Text.byteAt_of_drop hstar, Text.byteAt_of_drop hslash, Nat.add_sub_cancel,
    Text.byteAt_of_drop h]
  dsimp only [bind, Except.bind]
  rw [if_neg (not_not_intro rfl), if_neg (not_not_intro rfl), if_neg (Nat.succ_ne_zero pos)]
  rfl

theorem passBlock_of_endsAt_false (h : endsAt bytes pos = .ok false) :
    passBlock bytes pos = passBlock bytes (pos + 1) := by
  rw [passBlock]
  split
  · rw [h]
  · next hend =>
      rw [passBlock, if_neg (by omega)]

/-- Bytes that are no star are passed. -/
theorem passBlock_skip {bs : List UInt8} (h : bytes.drop pos = bs ++ tail)
    (hbs : ∀ b ∈ bs, b ≠ byte '*') :
    passBlock bytes pos = passBlock bytes (pos + bs.length) := by
  induction bs generalizing pos with
  | nil => rfl
  | cons b bs ih =>
      obtain ⟨hb, hbs⟩ := List.forall_mem_cons.1 hbs
      have hnext : bytes.drop (pos + 1) = bs ++ tail := by
        rw [← List.drop_drop, h]
        rfl
      rw [passBlock_of_endsAt_false (endsAt_of_ne_star h hb), ih hnext hbs, List.length_cons,
        Nat.add_assoc, Nat.add_comm 1]

theorem passBlock_other {c : Char} (hc : c ≠ '*') (a cs : List Char) :
    passBlock (encode (a ++ c :: cs)) (byteLength a) =
      passBlock (encode (a ++ c :: cs)) (byteLength (a ++ [c])) := by
  rw [passBlock_skip (Text.drop_encode a (c :: cs)) fun b hb h =>
    hc ((Text.eq_byte_iff_of_mem (by decide) hb).1 h),
    String.length_utf8EncodeChar, Text.byteLength_append, Text.byteLength_cons,
    Text.byteLength_nil, Nat.add_zero]

theorem passBlock_end (a : List Char) :
    passBlock (encode a) (byteLength a) = .ok (byteLength a, false) := by
  rw [passBlock, Text.length_encode, if_neg (by omega)]

/-- A star that does not close the comment is passed. -/
theorem passBlock_star {before d : Char} (h : ¬ (d = '/' ∧ before ≠ '>')) (a cs : List Char) :
    passBlock (encode (a ++ before :: '*' :: d :: cs)) (byteLength (a ++ [before])) =
      passBlock (encode (a ++ before :: '*' :: d :: cs)) (byteLength (a ++ [before] ++ ['*'])) := by
  have hpos : byteLength (a ++ [before] ++ ['*']) = byteLength (a ++ [before]) + 1 :=
    Text.byteLength_append _ _
  obtain ⟨n, b, hn, hb, hdrop⟩ := Text.exists_drop_eq_last a before ('*' :: d :: cs)
  rw [Text.encode_cons_of_isAscii (by decide)] at hdrop
  rw [hpos, hn]
  refine passBlock_of_endsAt_false ?_
  by_cases hd : d = '/'
  · subst hd
    rw [Text.encode_cons_of_isAscii (by decide)] at hdrop
    have hbefore : before = '>' := by simpa using h
    rw [endsAt_of_drop hdrop, (Text.eq_byte_iff_of_mem (by decide) hb).2 hbefore]
    rfl
  · obtain ⟨b', bs, hbytes, -⟩ := Text.exists_utf8EncodeChar_eq_cons d
    have hnext : (encode (a ++ before :: '*' :: d :: cs)).drop (n + 1) =
        byte '*' :: b' :: (bs ++ encode cs) := by
      rw [← List.drop_drop, hdrop, Text.encode_cons, hbytes]
      rfl
    refine endsAt_of_ne_slash hnext fun hslash => hd ?_
    refine (Text.eq_byte_iff_of_mem (by decide) ?_).1 hslash
    rw [hbytes]
    exact List.mem_cons_self

theorem passBlock_close {before : Char} (h : before ≠ '>') (a cs : List Char) :
    passBlock (encode (a ++ before :: '*' :: '/' :: cs)) (byteLength (a ++ [before])) =
      .ok (byteLength (a ++ before :: ['*', '/']), true) := by
  obtain ⟨n, b, hn, hb, hdrop⟩ := Text.exists_drop_eq_last a before ('*' :: '/' :: cs)
  rw [Text.encode_cons_of_isAscii (by decide), Text.encode_cons_of_isAscii (by decide)] at hdrop
  have hlt : n + 1 + 1 < (encode (a ++ before :: '*' :: '/' :: cs)).length := by
    have hlen := congrArg List.length hdrop
    rw [List.length_drop, List.length_cons, List.length_cons, List.length_cons] at hlen
    omega
  have hne : b ≠ byte '>' := fun hgt => h ((Text.eq_byte_iff_of_mem (by decide) hb).1 hgt)
  have hpos : byteLength (a ++ before :: ['*', '/']) = byteLength (a ++ [before]) + 2 := by
    rw [List.append_cons, Text.byteLength_append]
    rfl
  rw [hpos, hn, passBlock, if_pos hlt, endsAt_of_drop hdrop, decide_eq_true hne]

theorem passBlock_append (a : List Char) (before : Char) (cs : List Char) :
    passBlock (encode (a ++ before :: cs)) (byteLength (a ++ [before])) =
      .ok (byteLength (a ++ before :: (Enclosed.block before cs).text),
        (Enclosed.block before cs).closed) := by
  fun_induction Enclosed.block before cs generalizing a with
  | case1 before => exact passBlock_end (a ++ [before])
  | case2 before c =>
      rw [List.append_cons]
      by_cases hc : c = '*'
      · -- there is no byte behind the star
        subst hc
        have hlen : (encode (a ++ [before] ++ ['*'])).length = byteLength (a ++ [before]) + 1 := by
          rw [Text.length_encode, Text.byteLength_append]
          rfl
        rw [passBlock, if_neg (by omega), Text.length_encode]
      · rw [passBlock_other hc, passBlock_end]
  | case3 before c d cs h =>
      simp only [Bool.and_eq_true, beq_iff_eq, bne_iff_ne] at h
      obtain ⟨⟨rfl, rfl⟩, hbefore⟩ := h
      exact passBlock_close hbefore a cs
  | case4 before c d cs h ih =>
      have hstep : passBlock (encode (a ++ before :: c :: d :: cs)) (byteLength (a ++ [before])) =
          passBlock (encode (a ++ before :: c :: d :: cs)) (byteLength (a ++ [before] ++ [c])) := by
        by_cases hc : c = '*'
        · subst hc
          exact passBlock_star (by simpa using h) a cs
        · rw [List.append_cons]
          exact passBlock_other hc (a ++ [before]) (d :: cs)
      rw [hstep, List.append_cons, ih (a ++ [before]), List.append_assoc]
      rfl

end Block

/-- A literal or comment is passed to where it ends as a text. -/
theorem pass_append {k : Enclosure} {a : List Char} (h : k.opener <:+ a) (cs : List Char) :
    k.pass (encode (a ++ cs)) (byteLength a) =
      .ok (byteLength (a ++ (k.read cs).text), (k.read cs).closed) := by
  cases k with
  | character => exact congrArg Except.ok (passLiteral_append (by decide) (by decide) a cs)
  | string => exact congrArg Except.ok (passLiteral_append (by decide) (by decide) a cs)
  | line => exact passLine_append a cs
  | block =>
      -- the star of the opener is the character in front of the text
      obtain ⟨u, rfl⟩ := h
      simpa [pass, read, opener] using passBlock_append (u ++ ['/']) '*' cs

/-! ## Openers between characters -/

section Opening

variable {cs : List Char} {b : UInt8} {bs : List UInt8}

theorem singleton_isPrefix_iff {m : Char} (hm : IsAscii m) (hbytes : encode cs = b :: bs) :
    [m] <+: cs ↔ b = byte m := by
  rw [← Text.encode_isPrefix_iff, hbytes, Text.encode_cons_of_isAscii hm, List.cons_prefix_cons]
  simp [encode, eq_comm]

theorem pair_isPrefix_iff {m n : Char} (hm : IsAscii m) (hn : IsAscii n)
    (hbytes : encode cs = b :: bs) :
    [m, n] <+: cs ↔ b = byte m ∧ bs[0]? = some (byte n) := by
  rw [← Text.encode_isPrefix_iff, hbytes, Text.encode_cons_of_isAscii hm,
    Text.encode_cons_of_isAscii hn, List.cons_prefix_cons]
  cases bs with
  | nil => simp
  | cons b' bs => simp [encode, eq_comm]

/-- Two bytes tell which literal or comment begins. -/
theorem opening?_eq_some_iff (hbytes : encode cs = b :: bs) {k : Enclosure} :
    opening? b bs[0]? = some k ↔ k.opener <+: cs := by
  have hopener : k.opener <+: cs ↔ match k with
      | character => b = byte '\''
      | string => b = byte '"'
      | line => b = byte '/' ∧ bs[0]? = some (byte '/')
      | block => b = byte '/' ∧ bs[0]? = some (byte '*') := by
    cases k with
    | character => exact singleton_isPrefix_iff (by decide) hbytes
    | string => exact singleton_isPrefix_iff (by decide) hbytes
    | line => exact pair_isPrefix_iff (by decide) (by decide) hbytes
    | block => exact pair_isPrefix_iff (by decide) (by decide) hbytes
  have hquotes : byte '\'' ≠ byte '"' := by decide
  have hslash : byte '\'' ≠ byte '/' ∧ byte '"' ≠ byte '/' := by decide
  have hsecond : byte '/' ≠ byte '*' := by decide
  rw [hopener, opening?]
  split
  · next h => cases k <;> simp [h, hquotes, hslash]
  · split
    · next h => cases k <;> simp [h, hquotes.symm, hslash]
    · split
      · next h => cases k <;> simp [h, hslash.1.symm, hslash.2.symm, hsecond]
      · split
        · next h => cases k <;> simp [h, hslash.1.symm, hslash.2.symm, hsecond.symm]
        · cases k <;> simp [*]

theorem opening?_eq_none (hbytes : encode cs = b :: bs)
    (h : ∀ k : Enclosure, ¬ k.opener <+: cs) : opening? b bs[0]? = none :=
  Option.eq_none_iff_forall_ne_some.2 fun k hk => h k ((opening?_eq_some_iff hbytes).1 hk)

end Opening

theorem opening?_of_le {b : UInt8} (h : 0x80 ≤ b.toNat) (second : Option UInt8) :
    opening? b second = none := by
  have hne : ∀ m, IsAscii m → b ≠ byte m := fun m hm => Text.ne_byte_of_le h hm
  rw [opening?, if_neg (hne _ (by decide)), if_neg (hne _ (by decide)),
    if_neg fun h => hne '/' (by decide) h.1, if_neg fun h => hne '/' (by decide) h.1]

end Enclosure

end Loopsmith
