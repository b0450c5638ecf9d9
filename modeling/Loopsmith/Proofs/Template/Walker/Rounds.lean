import Loopsmith.Proofs.Template.Walker.Passes

/-!
# The rounds of a walk

A round in a tag does what the reader of the tag does, fault by fault, and a round in code tells
what opens at the index.  In code the index may be inside of a character too, but then all it
finds there are bytes that open nothing.
-/

namespace Loopsmith

open Text (byteLength encode byte IsAscii)

/-! ## Tags between characters -/

namespace Walker

theorem tests_space : Text.Tests (· == byte ' ') isSpace := by
  have hspace : IsAscii ' ' := by decide
  refine ⟨fun c hc => ?_, fun b hb => ?_, fun c hc => ?_⟩
  · rw [isSpace, Bool.eq_iff_iff, beq_iff_eq, beq_iff_eq, Text.byte_inj hc hspace]
  · exact beq_eq_false_iff_ne.2 (Text.ne_byte_of_le hb hspace)
  · refine beq_eq_false_iff_ne.2 ?_
    rintro rfl
    exact hc hspace

theorem tests_name : Text.Tests isNameByte isNameChar := by
  have hascii : ∀ n < 0x80, isNameByte (UInt8.ofNat n) = isNameChar (Char.ofNat n) := by
    decide +kernel
  have hhigh : ∀ n < 0x100, 0x80 ≤ n → isNameByte (UInt8.ofNat n) = false := by decide +kernel
  refine ⟨fun c hc => ?_, fun b hb => ?_, fun c hc => ?_⟩
  · have h := hascii c.toNat hc
    rwa [Char.ofNat_toNat] at h
  · have h := hhigh b.toNat b.toNat_lt hb
    rwa [UInt8.ofNat_toNat] at h
  · by_contra hname
    have hrange := toNat_of_isNameChar (eq_true_of_ne_false hname)
    exact hc (Nat.lt_of_le_of_lt hrange.2.1 (by decide))

theorem unterminated_eq (text : List Char) (tagStart : Nat) :
    unterminated text tagStart = .fault (Tag.Place.mk tagStart (byteLength text)).unterminated := by
  rw [unterminated, Text.length_encode]
  rfl

theorem faultAt_append (a rest : List Char) (fault : TagFault) (c : Char) (tagStart : Nat) :
    faultAt (a ++ c :: rest) fault (byteLength a) =
      .fault ((Tag.Place.mk tagStart (byteLength (a ++ c :: rest))).faultAt fault c rest) := by
  rw [faultAt, Text.charAt?_append, Tag.Place.faultAt, Text.byteLength_append, Nat.add_sub_cancel]
  rfl

theorem skipSpaces_append (a cs : List Char) :
    skipSpaces (a ++ cs) (byteLength a) = byteLength (a ++ cs.takeWhile isSpace) :=
  Text.skipWhile_append tests_space a cs

/-- The byte that a text begins with. -/
theorem getElem?_encode_cons (a : List Char) (c : Char) (rest : List Char) :
    ∃ b ∈ String.utf8EncodeChar c, (encode (a ++ c :: rest))[byteLength a]? = some b := by
  obtain ⟨b, bs, hbytes, -⟩ := Text.exists_utf8EncodeChar_eq_cons c
  refine ⟨b, by rw [hbytes]; exact List.mem_cons_self, ?_⟩
  have h := Text.getElem?_encode a (c :: rest) 0
  rw [Nat.add_zero] at h
  rw [h, Text.encode_cons, hbytes]
  rfl

/-- A name is passed as it is read. -/
theorem passName_append (a cs : List Char) (tagStart : Nat) :
    passName (a ++ cs) tagStart (byteLength a) =
      match Tag.readName ⟨tagStart, byteLength (a ++ cs)⟩ cs with
      | .ok (name, _) => .ok (name, byteLength (a ++ name.toList ++ [' ']))
      | .error e => .error (.fault e) := by
  have happ := List.takeWhile_append_dropWhile (p := isNameChar) (l := cs)
  unfold passName Tag.readName
  rw [Text.skipWhile_append tests_name]
  generalize cs.takeWhile isNameChar = name at happ ⊢
  generalize cs.dropWhile isNameChar = rest at happ ⊢
  subst happ
  rw [← List.append_assoc]
  cases rest with
  | nil =>
      have hnone : (encode (a ++ name ++ []))[byteLength (a ++ name)]? = none := by
        rw [List.append_nil, List.getElem?_eq_none_iff, Text.length_encode]
      simp only [hnone, unterminated_eq]
  | cons c rest =>
      obtain ⟨b, hb, hget⟩ := getElem?_encode_cons (a ++ name) c rest
      have hempty : byteLength (a ++ name) = byteLength a ↔ name.isEmpty = true := by
        rw [Text.byteLength_append, Nat.add_eq_left, List.isEmpty_iff]
        constructor
        · intro hzero
          by_contra hne
          exact absurd hzero (Nat.pos_iff_ne_zero.1 (Text.byteLength_pos hne))
        · rintro rfl
          rfl
      have hspace : b = byte ' ' ↔ (c == ' ') = true := by
        rw [Text.eq_byte_iff_of_mem (by decide) hb, beq_iff_eq]
      have hchar : Text.charAt? (a ++ name ++ c :: rest) (byteLength (a ++ name)) = some c :=
        Text.charAt?_append (a ++ name) (c :: rest)
      simp only [hget, hempty, hspace, hchar, Option.getD_some, faultAt_append _ _ _ _ tagStart]
      by_cases hname : name.isEmpty = true
      · simp only [if_pos hname]
      · by_cases hc : (c == ' ') = true
        · have hin := Text.textIn_append a name (c :: rest)
          rw [Span.ofWidth, ← Text.byteLength_append] at hin
          simp only [if_neg hname, if_pos hc, hin, String.toList_ofList]
          rw [Text.byteLength_append (a ++ name)]
          rfl
        · simp only [if_neg hname, if_neg hc]

theorem atPartOfClose_append {rest : List Char} (h : ¬ tagClose <+: rest) (a : List Char) :
    atPartOfClose (a ++ rest) (byteLength a) = .ok (rest.isPrefixOf tagClose) := by
  rw [atPartOfClose, Text.bytesFrom_append]
  dsimp only [bind, Except.bind, pure, Except.pure]
  congr 1
  rw [Bool.eq_iff_iff, Bool.and_eq_true, decide_eq_true_eq, List.isPrefixOf_iff_prefix,
    List.isPrefixOf_iff_prefix, Text.encode_isPrefix_iff]
  refine and_iff_right_of_imp fun hpart => ?_
  -- a part of the marker that is as long as the marker would be the marker
  by_contra hlen
  have heq := ((Text.encode_isPrefix_iff _ _).2 hpart).eq_of_length_le (Nat.not_lt.1 hlen)
  rw [Text.encode_injective heq] at h
  exact h List.prefix_rfl

/-- The part of a tag up to the space behind its name. -/
theorem passName_behind_spaces (a cs : List Char) (tagStart : Nat) :
    passName (a ++ cs) tagStart (skipSpaces (a ++ cs) (byteLength a)) =
      match Tag.readName ⟨tagStart, byteLength (a ++ cs)⟩ (cs.dropWhile isSpace) with
      | .ok (name, _) =>
          .ok (name, byteLength (a ++ cs.takeWhile isSpace ++ name.toList ++ [' ']))
      | .error e => .error (.fault e) := by
  have h := passName_append (a ++ cs.takeWhile isSpace) (cs.dropWhile isSpace) tagStart
  rwa [List.append_assoc, List.takeWhile_append_dropWhile, ← skipSpaces_append] at h

theorem eq_append_behind_name {p : Tag.Place} {a cs after : List Char} {name : String}
    (h : Tag.readName p (cs.dropWhile isSpace) = .ok (name, after)) :
    a ++ cs = a ++ cs.takeWhile isSpace ++ name.toList ++ [' '] ++ after := by
  conv => lhs; rw [← List.takeWhile_append_dropWhile (p := isSpace) (l := cs),
    Tag.readName_source h]
  simp only [List.append_assoc, List.cons_append, List.nil_append]

theorem isPrefixOf_encode (a b : List Char) :
    (encode a).isPrefixOf (encode b) = a.isPrefixOf b := by
  rw [Bool.eq_iff_iff, List.isPrefixOf_iff_prefix, List.isPrefixOf_iff_prefix,
    Text.encode_isPrefix_iff]

theorem passClose_append (a rest : List Char) (tagStart : Nat) :
    passClose (a ++ tagClose ++ rest) tagStart (byteLength a) =
      .ok (byteLength (a ++ tagClose)) := by
  have hclose : tagClose.isPrefixOf (tagClose ++ rest) = true :=
    List.isPrefixOf_iff_prefix.2 (List.prefix_append _ _)
  rw [passClose, List.append_assoc, Text.bytesFrom_append]
  dsimp only [bind, Except.bind]
  rw [isPrefixOf_encode, if_pos hclose, Text.byteLength_append, Text.length_encode]
  rfl

theorem passClose_end (a : List Char) (tagStart : Nat) :
    passClose a tagStart (byteLength a) =
      .error (.fault (Tag.Place.mk tagStart (byteLength a)).unterminated) := by
  have hbytes := Text.bytesFrom_append a []
  have hchar := Text.charAt?_append a []
  rw [List.append_nil] at hbytes hchar
  rw [passClose, hbytes, hchar, unterminated_eq]
  rfl

theorem passClose_of_not {c : Char} {rest : List Char} (h : ¬ tagClose <+: c :: rest)
    (a : List Char) (tagStart : Nat) :
    passClose (a ++ c :: rest) tagStart (byteLength a) =
      if (c :: rest).isPrefixOf tagClose then
        .error (.fault (Tag.Place.mk tagStart (byteLength (a ++ c :: rest))).unterminated)
      else
        .error (.fault ((Tag.Place.mk tagStart (byteLength (a ++ c :: rest))).faultAt
          (.expectedClose c) c rest)) := by
  have hclose : tagClose.isPrefixOf (c :: rest) = false := by
    rwa [Bool.eq_false_iff, ne_eq, List.isPrefixOf_iff_prefix]
  rw [passClose, Text.bytesFrom_append]
  dsimp only [bind, Except.bind]
  rw [isPrefixOf_encode, hclose, if_neg Bool.false_ne_true, Text.charAt?_append,
    atPartOfClose_append h, unterminated_eq]
  dsimp only [List.head?_cons]
  rw [faultAt_append a rest _ c tagStart]
  split
  · rfl
  · rfl

/-- A substitution tag is passed as it is read. -/
theorem roundSubstitution_eq (a cs : List Char) {w : Walker} (hpos : w.pos = byteLength a) :
    w.roundSubstitution (a ++ cs) =
      match Tag.readSubstitution ⟨w.tagStart, byteLength (a ++ cs)⟩ cs with
      | .ok (t, rest) =>
          let stop := byteLength (a ++ cs) - byteLength rest
          .ok (w.closeTag (Template.Placed.mk (.tag t) ⟨w.tagStart, stop⟩).segment stop)
      | .error e => .error (.fault e) := by
  unfold roundSubstitution Tag.readSubstitution
  rw [hpos, passName_behind_spaces]
  cases hname : Tag.readName ⟨w.tagStart, byteLength (a ++ cs)⟩ (cs.dropWhile isSpace) with
  | error e => rfl
  | ok nr =>
      obtain ⟨name, after⟩ := nr
      dsimp only [bind, Except.bind]
      rw [eq_append_behind_name hname]
      generalize a ++ cs.takeWhile isSpace ++ name.toList ++ [' '] = front
      rw [skipSpaces_append]
      have hafter := List.takeWhile_append_dropWhile (p := isSpace) (l := after)
      generalize (after.takeWhile isSpace).length = trail
      generalize after.dropWhile isSpace = rest at hafter ⊢
      generalize after.takeWhile isSpace = spaces at hafter ⊢
      subst hafter
      rw [← List.append_assoc]
      cases hclose : tagClose.isPrefixOf? rest with
      | some afterTag =>
          rw [Tag.eq_append_of_isPrefixOf? hclose, ← List.append_assoc, passClose_append]
          dsimp only
          rw [Text.byteLength_append _ afterTag, Nat.add_sub_cancel]
          rfl
      | none =>
          cases rest with
          | nil =>
              rw [List.append_nil, passClose_end]
          | cons c rest =>
              rw [passClose_of_not (Tag.isPrefixOf?_eq_none_iff.1 hclose)]
              cases (c :: rest).isPrefixOf tagClose with
              | true => rfl
              | false => rfl

/-- A conditional tag is passed as it is read. -/
theorem roundConditional_eq (a cs : List Char) {w : Walker} (hpos : w.pos = byteLength a) :
    w.roundConditional (a ++ cs) =
      match Tag.readConditional ⟨w.tagStart, byteLength (a ++ cs)⟩ cs with
      | .ok (t, rest) =>
          let stop := byteLength (a ++ cs) - byteLength rest
          .ok (w.closeTag (Template.Placed.mk (.tag t) ⟨w.tagStart, stop⟩).segment stop)
      | .error e => .error (.fault e) := by
  unfold roundConditional Tag.readConditional
  rw [hpos, passName_behind_spaces]
  cases hname : Tag.readName ⟨w.tagStart, byteLength (a ++ cs)⟩ (cs.dropWhile isSpace) with
  | error e => rfl
  | ok nr =>
      obtain ⟨name, after⟩ := nr
      dsimp only [bind, Except.bind]
      rw [eq_append_behind_name hname]
      generalize a ++ cs.takeWhile isSpace ++ name.toList ++ [' '] = front
      rw [Text.textFrom_append]
      dsimp only
      rw [Text.offsetOf?_tagClose]
      cases hsplit : Tag.splitAtClose after with
      | none =>
          rw [unterminated_eq]
          rfl
      | some br =>
          obtain ⟨body, afterTag⟩ := br
          have hstop : byteLength (front ++ after) - byteLength afterTag =
              byteLength front + byteLength body + byteLength tagClose := by
            rw [Tag.splitAtClose_source hsplit]
            simp only [Text.byteLength_append]
            omega
          have hbody : ∀ t, Template.Placed.bodySpan ⟨t, w.tagStart,
              byteLength front + byteLength body + byteLength tagClose⟩ body =
                ⟨byteLength front, byteLength front + byteLength body⟩ := by
            intro t
            rw [Template.Placed.bodySpan, Nat.add_sub_cancel, Nat.add_sub_cancel]
          dsimp only [Option.map_some]
          rw [hstop, Template.Placed.segment]
          dsimp only
          rw [hbody, Text.length_encode]
          rfl

/-! ## Code between characters, and inside of one -/

section Code

variable {a cs rest : List Char} {w : Walker}

theorem roundCode_conditional (hpos : w.pos = byteLength a) (hcs : conditionalOpener <+: cs) :
    w.roundCode (encode (a ++ cs)) = .ok (w.openTag conditionalOpener .conditional) := by
  rw [roundCode, hpos, Text.bytesFrom_append]
  dsimp only [bind, Except.bind]
  rw [isPrefixOf_encode, if_pos (List.isPrefixOf_iff_prefix.2 hcs)]
  rfl

theorem roundCode_substitution (hpos : w.pos = byteLength a) (hcs : substitutionOpener <+: cs) :
    w.roundCode (encode (a ++ cs)) = .ok (w.openTag substitutionOpener .substitution) := by
  have hnot : ¬ conditionalOpener.isPrefixOf cs = true := by
    obtain ⟨rest, rfl⟩ := hcs
    rw [List.isPrefixOf_iff_prefix]
    exact Tag.not_conditionalOpener_isPrefix rest
  rw [roundCode, hpos, Text.bytesFrom_append]
  dsimp only [bind, Except.bind]
  rw [isPrefixOf_encode, isPrefixOf_encode, if_neg hnot,
    if_pos (List.isPrefixOf_iff_prefix.2 hcs)]
  rfl

/-- Where no tag opens, the first two bytes decide. -/
theorem roundCode_of_drop {bytes bs : List UInt8} {b : UInt8} (hdrop : bytes.drop w.pos = b :: bs)
    (hcond : ¬ encode conditionalOpener <+: b :: bs)
    (hsubst : ¬ encode substitutionOpener <+: b :: bs) :
    w.roundCode bytes = .ok (match Enclosure.opening? b bs[0]? with
      | some k => w.advance (encode k.opener).length (.enclosed k)
      | none => w.advance 1 .code) := by
  have hle : w.pos ≤ bytes.length := (Text.lt_length_of_drop_eq_cons hdrop).le
  rw [roundCode, Text.bytesFrom, if_pos hle, hdrop]
  dsimp only [bind, Except.bind]
  rw [if_neg (by rwa [List.isPrefixOf_iff_prefix]), if_neg (by rwa [List.isPrefixOf_iff_prefix])]
  change (match Enclosure.opening? b bs[0]? with
    | some k => pure (w.advance (encode k.opener).length (.enclosed k))
    | none => pure (w.advance 1 .code)) = _
  cases Enclosure.opening? b bs[0]? with
  | some k => rfl
  | none => rfl

theorem roundCode_of_not_opensTag (hpos : w.pos = byteLength a) (hopen : ¬ OpensTag cs)
    {b : UInt8} {bs : List UInt8} (hbytes : encode cs = b :: bs) :
    w.roundCode (encode (a ++ cs)) = .ok (match Enclosure.opening? b bs[0]? with
      | some k => w.advance (encode k.opener).length (.enclosed k)
      | none => w.advance 1 .code) := by
  refine roundCode_of_drop ?_ ?_ ?_
  · rw [hpos, Text.drop_encode, hbytes]
  · rw [← hbytes, Text.encode_isPrefix_iff]
    exact fun h => hopen (.inr h)
  · rw [← hbytes, Text.encode_isPrefix_iff]
    exact fun h => hopen (.inl h)

/-- A byte that is not ASCII is passed. -/
theorem roundCode_of_le {bytes bs : List UInt8} {b : UInt8} (hdrop : bytes.drop w.pos = b :: bs)
    (hb : 0x80 ≤ b.toNat) : w.roundCode bytes = .ok (w.advance 1 .code) := by
  have hslash : byte '/' ≠ b := (Text.ne_byte_of_le hb (by decide)).symm
  rw [roundCode_of_drop hdrop, Enclosure.opening?_of_le hb]
  · exact fun h => hslash (List.cons_prefix_cons.1 h).1
  · exact fun h => hslash (List.cons_prefix_cons.1 h).1

end Code

end Walker
end Loopsmith
