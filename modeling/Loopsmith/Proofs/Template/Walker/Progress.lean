import Loopsmith.Proofs.Template.Walker.Rounds
import Mathlib.Logic.Relation

/-!
# Walks come forward

The walker never looks back, so what it has done is told by the items it has read.  `Stands` says
where it can be after some rounds: in code, behind an opener, or at the end of something that has
no end; in code it may be inside of the character that was read last.  What it has put aside are
the segments of these items, up to the last tag (`Kept`).

One round from such a place ends with the fault that scanning finds, or leads to another such place
further on (`Stands.proceeds`).  So a walk comes to its end, and there it has what scanning the
text gives (`Stands.walk_eq`).
-/

namespace Loopsmith

open Text (byteLength encode byte)

/-! ## The segments of items -/

namespace Template

/-- What is in front of a tag and what is behind it are gathered apart. -/
theorem gather_tag (front : List Item) (t : Tag) (is : List Item) :
    gather (front ++ .tag t :: is) = gather front ++ .tag t :: gather is := by
  induction front with
  | nil => rfl
  | cons i front ih =>
      rw [List.cons_append]
      cases hi : i.isText with
      | false =>
          cases i with
          | tag t' => rw [gather, ih, gather, List.cons_append]
          | char c => cases hi
          | enclosed text closed => cases hi
      | true =>
          rw [gather_cons_of_isText hi, gather_cons_of_isText hi, ih]
          rcases gather front with _ | ⟨_ | _, ps⟩
          · rfl
          · rfl
          · rfl

/-- What follows a tag is gathered for itself. -/
theorem gather_behind_tag {front : List Item} (h : ∀ i ∈ front.getLast?, i.isText = false)
    (is : List Item) : gather (front ++ is) = gather front ++ gather is := by
  rcases List.eq_nil_or_concat front with rfl | ⟨front, i, rfl⟩
  · rfl
  · rw [List.concat_eq_append] at h ⊢
    rw [List.getLast?_concat] at h
    cases i with
    | tag t =>
        rw [List.append_assoc, List.singleton_append, gather_tag, gather_tag, List.append_assoc]
        rfl
    | char c => cases h _ rfl
    | enclosed text closed => cases h _ rfl

theorem place_append (pos : Nat) (ps qs : List Piece) :
    place pos (ps ++ qs) =
      place pos ps ++ place (pos + byteLength (ps.flatMap Piece.source)) qs := by
  induction ps generalizing pos with
  | nil => rfl
  | cons p ps ih =>
      rw [List.cons_append, place, place, ih, List.flatMap_cons, Text.byteLength_append,
        Nat.add_assoc, List.cons_append]

theorem flatMap_source_gather (is : List Item) :
    (gather is).flatMap Piece.source = is.flatMap Item.source := by
  have h := (segments_place_gather 0 is).source
  rwa [map_piece_place] at h

/-- The segments of a template, as they are reported. -/
def segments (t : Template) : List Segment :=
  t.placed.map Placed.segment

end Template

/-- The segments that a sequence of items makes. -/
def segmentsOf (is : List Item) : List Segment :=
  (Template.mk (Template.gather is)).segments

theorem segmentsOf_append {front is : List Item}
    (h : Template.gather (front ++ is) = Template.gather front ++ Template.gather is) :
    segmentsOf (front ++ is) = segmentsOf front ++
      (Template.place (byteLength (front.flatMap Item.source)) (Template.gather is)).map
        Template.Placed.segment := by
  rw [segmentsOf, Template.segments, Template.placed, h, Template.place_append,
    Template.flatMap_source_gather, Nat.zero_add, List.map_append]
  rfl

theorem segmentsOf_tag (is : List Item) (t : Tag) :
    segmentsOf (is ++ [.tag t]) = segmentsOf is ++ [(Template.Placed.mk (.tag t)
      (Span.ofWidth (byteLength (is.flatMap Item.source)) (byteLength t.source))).segment] :=
  segmentsOf_append (Template.gather_tag is t [])

theorem segmentsOf_text {front run : List Item} (hfront : ∀ i ∈ front.getLast?, i.isText = false)
    (hne : run ≠ []) (hrun : ∀ i ∈ run, i.isText = true) :
    segmentsOf (front ++ run) = segmentsOf front ++ [.text (Span.ofWidth
      (byteLength (front.flatMap Item.source)) (byteLength (run.flatMap Item.source)))] := by
  have hgather : Template.gather (run ++ []) = [.text (run.flatMap Item.source)] :=
    Template.gather_append hne hrun (by simp)
  rw [List.append_nil] at hgather
  rw [segmentsOf_append (Template.gather_behind_tag hfront run), hgather]
  rfl

namespace Walker

/-- The walker has made the segments of `is`, except for the text at their end. -/
def Kept (w : Walker) (is : List Item) : Prop :=
  ∃ front run, is = front ++ run ∧ (∀ i ∈ run, i.isText = true) ∧
    (∀ i ∈ front.getLast?, i.isText = false) ∧ w.segments = segmentsOf front ∧
    w.textStart = byteLength (front.flatMap Item.source)

namespace Kept

variable {w : Walker} {is : List Item}

theorem start : Kept start [] :=
  ⟨[], [], rfl, by simp, by simp, rfl, rfl⟩

theorem of_eq {w' : Walker} (h : w.Kept is) (hsegments : w'.segments = w.segments)
    (htext : w'.textStart = w.textStart) : w'.Kept is := by
  obtain ⟨front, run, his, hrun, hfront, hs, ht⟩ := h
  exact ⟨front, run, his, hrun, hfront, hsegments.trans hs, htext.trans ht⟩

/-- What is read into a text makes no segment yet. -/
theorem text {i : Item} (h : w.Kept is) (hi : i.isText = true) : w.Kept (is ++ [i]) := by
  obtain ⟨front, run, rfl, hrun, hfront, hs, ht⟩ := h
  refine ⟨front, run ++ [i], List.append_assoc _ _ _, ?_, hfront, hs, ht⟩
  exact List.forall_mem_append.2 ⟨hrun, List.forall_mem_singleton.2 hi⟩

theorem segments_flush (h : w.Kept is) (hne : ∀ i ∈ is, i.source ≠ []) :
    (w.flush (byteLength (is.flatMap Item.source))).segments = segmentsOf is := by
  obtain ⟨front, run, rfl, hrun, hfront, hs, ht⟩ := h
  rw [flush, hs, ht]
  dsimp only
  by_cases hnil : run = []
  · subst hnil
    rw [List.append_nil, if_neg (Nat.lt_irrefl _)]
  · have hpos : 0 < byteLength (run.flatMap Item.source) := by
      obtain ⟨i, run, rfl⟩ := List.exists_cons_of_ne_nil hnil
      refine Text.byteLength_pos ?_
      rw [List.flatMap_cons]
      exact List.append_ne_nil_of_left_ne_nil
        (hne i (List.mem_append_right _ List.mem_cons_self)) _
    rw [List.flatMap_append, Text.byteLength_append, if_pos (Nat.lt_add_of_pos_right hpos),
      segmentsOf_text hfront hnil hrun]
    rfl

/-- A tag ends the text in front of it and is a segment by itself. -/
theorem tag {t : Tag} {stop : Nat} (hs : w.segments = segmentsOf is)
    (hstart : w.tagStart = byteLength (is.flatMap Item.source))
    (hstop : stop = byteLength ((is ++ [Item.tag t]).flatMap Item.source)) :
    Kept (w.closeTag (Template.Placed.mk (.tag t) ⟨w.tagStart, stop⟩).segment stop)
      (is ++ [.tag t]) := by
  refine ⟨is ++ [Item.tag t], [], (List.append_nil _).symm, by simp, ?_, ?_, hstop⟩
  · rw [List.getLast?_append_of_ne_nil _ (List.cons_ne_nil _ _)]
    rintro i ⟨⟩
    rfl
  · have hspan : (⟨w.tagStart, stop⟩ : Span) =
        Span.ofWidth (byteLength (is.flatMap Item.source)) (byteLength t.source) := by
      rw [hstart, hstop, Span.ofWidth, List.flatMap_append, Text.byteLength_append]
      simp [Item.source]
    rw [closeTag, hs, hspan, segmentsOf_tag]

end Kept
end Walker

/-! ## How far the items are read -/

namespace LexesTo

variable {cs rest rest' : List Char} {is : List Item} {i : Item}

theorem concat (h : LexesTo cs is rest) (hi : i.Begins rest rest') :
    LexesTo cs (is ++ [i]) rest' := by
  induction h with
  | nil => exact .cons hi (.nil rest')
  | cons hj _ ih => exact .cons hj (ih hi)

theorem source_ne_nil (h : LexesTo cs is rest) : ∀ i ∈ is, i.source ≠ [] := by
  induction h with
  | nil => exact fun i hi => absurd hi List.not_mem_nil
  | cons hj _ ih => exact List.forall_mem_cons.2 ⟨hj.source_ne_nil, ih⟩

theorem scan_eq_ok (h : LexesTo cs is []) : Item.scan 0 cs = .ok is := by
  have hlexes := h.lexes .nil
  rw [List.append_nil] at hlexes
  exact Item.scan_eq_ok_iff.2 hlexes

theorem scan_eq_error {e : TagError} (h : LexesTo cs is rest)
    (hread : Tag.read? (byteLength (is.flatMap Item.source)) rest = some (.error e)) :
    Item.scan 0 cs = .error e := by
  rw [h.scan_eq, Nat.zero_add, Item.scan_of_read?_eq_error hread]
  rfl

end LexesTo

/-! ## Where the walker stands -/

/-- What a tag starts with that the walker is inside of. -/
def Mode.opener? : Mode → Option (List Char)
  | .substitution => some substitutionOpener
  | .conditional => some conditionalOpener
  | _ => none

/-- An opener at the end of the text. -/
theorem Tag.read?_of_opener {mode : Mode} {opener : List Char} (h : mode.opener? = some opener)
    (pos : Nat) : read? pos (opener ++ []) =
      some (.error (Place.ofText pos (opener ++ [])).unterminated) := by
  cases mode with
  | code => cases h
  | enclosed k => cases h
  | substitution => cases h; exact read?_substitution pos []
  | conditional => cases h; exact read?_conditional pos []

namespace Walker

/-- How the walker stands to the items of a text. -/
inductive Stands (text : List Char) (w : Walker) : Prop where
  /-- In code, in front of the last few bytes of the character that was read last. -/
  | code {is : List Item} {rest : List Char} (bs : List UInt8) (hlexes : LexesTo text is rest)
      (hkept : w.Kept is) (hmode : w.mode = .code)
      (hpos : w.pos + bs.length = byteLength (is.flatMap Item.source))
      (hdrop : (encode text).drop w.pos = bs ++ encode rest) (hbs : ∀ b ∈ bs, 0x80 ≤ b.toNat)
  /-- Behind the opener of a literal or comment. -/
  | enclosed {is : List Item} {rest : List Char} {k : Enclosure}
      (hlexes : LexesTo text is (k.opener ++ rest)) (hopen : ¬ OpensTag (k.opener ++ rest))
      (hkept : w.Kept is) (hmode : w.mode = .enclosed k)
      (hpos : w.pos = byteLength (is.flatMap Item.source ++ k.opener))
  /-- At the end of the text, in a literal or comment that has no end. -/
  | unclosed {is : List Item} {k : Enclosure} (hlexes : LexesTo text is []) (hkept : w.Kept is)
      (hmode : w.mode = .enclosed k) (hpos : w.pos = byteLength text)
  /-- Behind the opener of a tag. -/
  | tag {is : List Item} {opener rest : List Char} (hlexes : LexesTo text is (opener ++ rest))
      (hmode : w.mode.opener? = some opener) (hsegments : w.segments = segmentsOf is)
      (hstart : w.tagStart = byteLength (is.flatMap Item.source))
      (hpos : w.pos = byteLength (is.flatMap Item.source ++ opener))

theorem stands_start (text : List Char) : Stands text start :=
  .code [] (.nil text) .start rfl rfl rfl (by simp)

theorem Stands.pos_le {text : List Char} {w : Walker} (h : w.Stands text) :
    w.pos ≤ byteLength text := by
  cases h with
  | code _ hlexes _ _ hpos _ _ =>
      rw [← hlexes.source, Text.byteLength_append]
      omega
  | enclosed hlexes _ _ _ hpos =>
      rw [← hlexes.source, hpos, Text.byteLength_append, Text.byteLength_append,
        Text.byteLength_append]
      omega
  | unclosed _ _ _ hpos => exact hpos.le
  | tag hlexes _ _ _ hpos =>
      rw [← hlexes.source, hpos, Text.byteLength_append, Text.byteLength_append,
        Text.byteLength_append]
      omega

/-! ## One round -/

section Round

variable {text : List Char} {w : Walker} {is : List Item} {rest : List Char}

/-- What comes of a round: the fault that scanning finds too, or another stand further on. -/
def Proceeds (text : List Char) (w : Walker) : Prop :=
  (∃ e, w.round text = .error (.fault e) ∧ Item.scan 0 text = .error e) ∨
    ∃ next, w.round text = .ok next ∧ w.pos < next.pos ∧ next.Stands text

theorem proceeds_inside {b : UInt8} {bs : List UInt8} (hlexes : LexesTo text is rest)
    (hkept : w.Kept is) (hmode : w.mode = .code)
    (hpos : w.pos + (b :: bs).length = byteLength (is.flatMap Item.source))
    (hdrop : (encode text).drop w.pos = b :: bs ++ encode rest)
    (hbs : ∀ d ∈ b :: bs, 0x80 ≤ d.toNat) : Proceeds text w := by
  obtain ⟨hb, hbs⟩ := List.forall_mem_cons.1 hbs
  refine .inr ⟨w.advance 1 .code, ?_, Nat.lt_succ_self _, ?_⟩
  · rw [round, hmode]
    exact roundCode_of_le hdrop hb
  · refine .code bs hlexes (hkept.of_eq rfl rfl) rfl ?_ ?_ hbs
    · rw [List.length_cons] at hpos
      change w.pos + 1 + bs.length = _
      omega
    · change (encode text).drop (w.pos + 1) = _
      rw [← List.drop_drop, hdrop]
      rfl

theorem proceeds_openTag {opener : List Char} (mode : Mode)
    (hlexes : LexesTo text is rest) (hkept : w.Kept is)
    (hpos : w.pos = byteLength (is.flatMap Item.source)) (hrest : opener <+: rest)
    (hmode : mode.opener? = some opener) (hne : opener ≠ [])
    (hround : w.round text = .ok (w.openTag opener mode)) : Proceeds text w := by
  obtain ⟨rest, rfl⟩ := hrest
  have hwidth : 0 < (encode opener).length := by
    rw [Text.length_encode]
    exact Text.byteLength_pos hne
  refine .inr ⟨_, hround, Nat.lt_add_of_pos_right hwidth, .tag hlexes hmode ?_ hpos ?_⟩
  · change (w.flush w.pos).segments = _
    rw [hpos]
    exact hkept.segments_flush hlexes.source_ne_nil
  · change w.pos + (encode opener).length = _
    rw [hpos, Text.length_encode, Text.byteLength_append]

theorem proceeds_openEnclosure {k : Enclosure} (hlexes : LexesTo text is rest) (hkept : w.Kept is)
    (hpos : w.pos = byteLength (is.flatMap Item.source)) (hopen : ¬ OpensTag rest)
    (hrest : k.opener <+: rest)
    (hround : w.round text = .ok (w.advance (encode k.opener).length (.enclosed k))) :
    Proceeds text w := by
  obtain ⟨rest, rfl⟩ := hrest
  have hwidth : 0 < (encode k.opener).length := by
    cases k <;> decide
  refine .inr ⟨_, hround, Nat.lt_add_of_pos_right hwidth,
    .enclosed hlexes hopen (hkept.of_eq rfl rfl) rfl ?_⟩
  change w.pos + (encode k.opener).length = _
  rw [hpos, Text.length_encode, Text.byteLength_append]

theorem proceeds_char {c : Char} (hlexes : LexesTo text is (c :: rest)) (hkept : w.Kept is)
    (hpos : w.pos = byteLength (is.flatMap Item.source))
    (hi : (Item.char c).Begins (c :: rest) rest)
    (hround : w.round text = .ok (w.advance 1 .code)) : Proceeds text w := by
  obtain ⟨b, bs, hbytes, hbs⟩ := Text.exists_utf8EncodeChar_eq_cons c
  have hsize : c.utf8Size = bs.length + 1 := by
    rw [← String.length_utf8EncodeChar, hbytes, List.length_cons]
  refine .inr ⟨_, hround, Nat.lt_succ_self _,
    .code bs (hlexes.concat hi) ((hkept.text rfl).of_eq rfl rfl) rfl ?_ ?_ hbs⟩
  · change w.pos + 1 + bs.length = _
    rw [hpos, List.flatMap_append, Text.byteLength_append]
    change _ = _ + (c.utf8Size + 0)
    omega
  · change (encode text).drop (w.pos + 1) = _
    rw [← List.drop_drop, hpos, ← hlexes.source, Text.drop_encode, Text.encode_cons, hbytes]
    rfl

/-- A round in code, where a character begins. -/
theorem proceeds_code (hlexes : LexesTo text is rest) (hkept : w.Kept is) (hmode : w.mode = .code)
    (hpos : w.pos = byteLength (is.flatMap Item.source)) (hne : rest ≠ []) : Proceeds text w := by
  have hround : w.round text = w.roundCode (encode (is.flatMap Item.source ++ rest)) := by
    rw [round, hmode, hlexes.source]
  by_cases hopen : OpensTag rest
  · rcases hopen with hsubst | hcond
    · exact proceeds_openTag .substitution hlexes hkept hpos hsubst rfl
        (by simp [substitutionOpener]) (hround.trans (roundCode_substitution hpos hsubst))
    · exact proceeds_openTag .conditional hlexes hkept hpos hcond rfl
        (by simp [conditionalOpener]) (hround.trans (roundCode_conditional hpos hcond))
  · obtain ⟨c, rest, rfl⟩ := List.exists_cons_of_ne_nil hne
    obtain ⟨b, bs, hbytes, -⟩ := Text.exists_utf8EncodeChar_eq_cons c
    have hencode : encode (c :: rest) = b :: (bs ++ encode rest) := by
      rw [Text.encode_cons, hbytes, List.cons_append]
    have hcode := roundCode_of_not_opensTag hpos hopen hencode
    by_cases hk : ∃ k : Enclosure, k.opener <+: c :: rest
    · obtain ⟨k, hk⟩ := hk
      rw [(Enclosure.opening?_eq_some_iff hencode).2 hk] at hcode
      exact proceeds_openEnclosure hlexes hkept hpos hopen hk (hround.trans hcode)
    · have hnone : ∀ k : Enclosure, ¬ k.opener <+: c :: rest := fun k h => hk ⟨k, h⟩
      rw [Enclosure.opening?_eq_none hencode hnone] at hcode
      exact proceeds_char hlexes hkept hpos (.char hopen hnone rfl) (hround.trans hcode)

/-- A round in a literal or comment. -/
theorem proceeds_enclosed {k : Enclosure} (hlexes : LexesTo text is (k.opener ++ rest))
    (hopen : ¬ OpensTag (k.opener ++ rest)) (hkept : w.Kept is) (hmode : w.mode = .enclosed k)
    (hpos : w.pos = byteLength (is.flatMap Item.source ++ k.opener)) (hne : rest ≠ []) :
    Proceeds text w := by
  have hcut := k.cut_read rest
  have hi : Item.Begins (k.opener ++ rest)
      (.enclosed (k.opener ++ (k.read rest).text) (k.read rest).closed) (k.read rest).rest :=
    .enclosed k hopen rfl hcut
  have hsource : is.flatMap Item.source ++ k.opener ++ rest = text := by
    rw [List.append_assoc, hlexes.source]
  have hpass := Enclosure.pass_append
    (List.suffix_append (is.flatMap Item.source) k.opener) rest
  have hround : w.round text = .ok { w with
      pos := byteLength (is.flatMap Item.source ++ k.opener ++ (k.read rest).text)
      mode := if (k.read rest).closed then .code else .enclosed k } := by
    rw [round, hmode, ← hsource]
    dsimp only
    rw [roundEnclosed, hpos, hpass]
    rfl
  have hlexes' := hlexes.concat hi
  have hitems : (is ++ [Item.enclosed (k.opener ++ (k.read rest).text)
      (k.read rest).closed]).flatMap Item.source =
        is.flatMap Item.source ++ k.opener ++ (k.read rest).text := by
    simp [Item.source]
  refine .inr ⟨_, hround, ?_, ?_⟩
  · change w.pos < byteLength (_ ++ (k.read rest).text)
    rw [hpos, Text.byteLength_append _ (k.read rest).text]
    exact Nat.lt_add_of_pos_right (Text.byteLength_pos (k.text_read_ne_nil hne))
  · cases hclosed : (k.read rest).closed with
    | true =>
        refine .code [] hlexes' ((hkept.text rfl).of_eq rfl rfl) rfl ?_ ?_ (by simp)
        · exact congrArg byteLength hitems.symm
        · change (encode text).drop (byteLength _) = _
          rw [← hitems, ← hlexes'.source, Text.drop_encode]
          rfl
    | false =>
        have hend := Enclosure.eq_of_cut_unclosed hcut hclosed
        rw [hend] at hlexes'
        refine .unclosed hlexes' ((hkept.text rfl).of_eq rfl rfl) rfl ?_
        change byteLength (_ ++ (k.read rest).text) = _
        rw [hend, hsource]

theorem exists_round_tag {opener a rest : List Char} (hmode : w.mode.opener? = some opener)
    (hstart : w.tagStart = byteLength a) (hpos : w.pos = byteLength (a ++ opener)) :
    ∃ r, Tag.read? (byteLength a) (opener ++ rest) = some r ∧
      (w.round (a ++ (opener ++ rest)) =
        match r with
        | .ok (t, after) =>
            let stop := byteLength (a ++ (opener ++ rest)) - byteLength after
            .ok (w.closeTag (Template.Placed.mk (.tag t) ⟨w.tagStart, stop⟩).segment stop)
        | .error e => .error (.fault e)) ∧
      ∀ t after, r = .ok (t, after) → byteLength after < byteLength rest := by
  have hplace : (⟨w.tagStart, byteLength (a ++ opener ++ rest)⟩ : Tag.Place) =
      Tag.Place.ofText (byteLength a) (opener ++ rest) := by
    rw [hstart, List.append_assoc, Text.byteLength_append, Tag.Place.ofText]
  cases hw : w.mode with
  | code => rw [hw] at hmode; cases hmode
  | enclosed k => rw [hw] at hmode; cases hmode
  | substitution =>
      rw [hw] at hmode
      cases hmode
      refine ⟨_, Tag.read?_substitution _ _, ?_, ?_⟩
      · have h := roundSubstitution_eq (a ++ substitutionOpener) rest hpos
        rw [hplace, List.append_assoc] at h
        rw [round, hw]
        exact h
      · intro t after h
        obtain ⟨lead, name, trail, -, -, hrest⟩ := Tag.readSubstitution_eq_ok_iff.1 h
        rw [hrest]
        simp only [Text.byteLength_append, Text.byteLength_cons]
        have := ' '.utf8Size_pos
        omega
  | conditional =>
      rw [hw] at hmode
      cases hmode
      refine ⟨_, Tag.read?_conditional _ _, ?_, ?_⟩
      · have h := roundConditional_eq (a ++ conditionalOpener) rest hpos
        rw [hplace, List.append_assoc] at h
        rw [round, hw]
        exact h
      · intro t after h
        obtain ⟨lead, name, body, -, -, -, hrest⟩ := Tag.readConditional_eq_ok_iff.1 h
        rw [hrest]
        simp only [Text.byteLength_append, Text.byteLength_cons]
        have := ' '.utf8Size_pos
        omega

/-- A round in a tag. -/
theorem proceeds_tag {opener : List Char} (hlexes : LexesTo text is (opener ++ rest))
    (hmode : w.mode.opener? = some opener) (hsegments : w.segments = segmentsOf is)
    (hstart : w.tagStart = byteLength (is.flatMap Item.source))
    (hpos : w.pos = byteLength (is.flatMap Item.source ++ opener)) : Proceeds text w := by
  obtain ⟨r, hread, hround, hshorter⟩ := exists_round_tag hmode hstart hpos
  rw [hlexes.source] at hround
  rcases r with e | ⟨t, after⟩
  · exact .inl ⟨e, hround, hlexes.scan_eq_error hread⟩
  · have hlexes' := hlexes.concat (.tag (Tag.read?_eq_ok_iff.1 hread))
    have hstop : byteLength text - byteLength after =
        byteLength ((is ++ [Item.tag t]).flatMap Item.source) := by
      rw [← hlexes'.source, Text.byteLength_append, Nat.add_sub_cancel]
    have hlen : byteLength text = w.pos + byteLength rest := by
      rw [hpos, ← Text.byteLength_append, List.append_assoc, hlexes.source]
    have hlt := hshorter t after rfl
    refine .inr ⟨_, hround, ?_,
      .code [] hlexes' (.tag hsegments hstart hstop) rfl hstop ?_ (by simp)⟩
    · change w.pos < byteLength text - byteLength after
      omega
    · change (encode text).drop (byteLength text - byteLength after) = _
      rw [hstop, ← hlexes'.source, Text.drop_encode]
      rfl

/-- **Every round comes forward** or finds a fault, wherever the walker stands. -/
theorem Stands.proceeds (h : w.Stands text) (hlt : w.pos < byteLength text) : Proceeds text w := by
  cases h with
  | code bs hlexes hkept hmode hpos hdrop hbs =>
      cases bs with
      | nil =>
          refine proceeds_code hlexes hkept hmode hpos ?_
          rintro rfl
          rw [← hlexes.source, List.append_nil, ← hpos] at hlt
          exact Nat.lt_irrefl _ hlt
      | cons b bs => exact proceeds_inside hlexes hkept hmode hpos hdrop hbs
  | enclosed hlexes hopen hkept hmode hpos =>
      refine proceeds_enclosed hlexes hopen hkept hmode hpos ?_
      rintro rfl
      rw [← hlexes.source, List.append_nil, ← hpos] at hlt
      exact Nat.lt_irrefl _ hlt
  | unclosed _ _ _ hpos => exact absurd hpos hlt.ne
  | tag hlexes hmode hsegments hstart hpos =>
      exact proceeds_tag hlexes hmode hsegments hstart hpos

theorem Stands.exists_fault {e : Halt} (h : w.Stands text) (hlt : w.pos < byteLength text)
    (hround : w.round text = .error e) : ∃ f, e = .fault f ∧ Item.scan 0 text = .error f := by
  rcases h.proceeds hlt with ⟨f, hfault, hscan⟩ | ⟨next, hok, -, -⟩
  · exact ⟨f, Except.error.inj (hround.symm.trans hfault), hscan⟩
  · rw [hround] at hok
    cases hok

theorem Stands.next {next : Walker} (h : w.Stands text) (hlt : w.pos < byteLength text)
    (hround : w.round text = .ok next) : w.pos < next.pos ∧ next.Stands text := by
  rcases h.proceeds hlt with ⟨f, hfault, -⟩ | ⟨next', hok, hforward, hnext⟩
  · rw [hround] at hfault
    cases hfault
  · rw [Except.ok.inj (hround.symm.trans hok)]
    exact ⟨hforward, hnext⟩

end Round

/-! ## A whole walk -/

/-- What scanning answers, in segments. -/
def answer (text : List Char) : Except Halt (List Segment) :=
  match Item.scan 0 text with
  | .ok is => .ok (segmentsOf is)
  | .error e => .error (.fault e)

section Walk

variable {text : List Char} {w : Walker} {is : List Item}

theorem answer_of_lexesTo (h : LexesTo text is []) (hkept : w.Kept is) :
    .ok (w.flush (encode text).length).segments = answer text := by
  have hlen : (encode text).length = byteLength (is.flatMap Item.source) := by
    rw [Text.length_encode, ← h.source, List.append_nil]
  rw [answer, h.scan_eq_ok, hlen, hkept.segments_flush h.source_ne_nil]

theorem eq_nil_of_append_eq {a rest : List Char} (h : a ++ rest = text)
    (hle : byteLength text ≤ byteLength a) : rest = [] := by
  by_contra hne
  have hpos := Text.byteLength_pos hne
  rw [← h, Text.byteLength_append] at hle
  omega

theorem finish_of_opener {opener : List Char} (h : w.mode.opener? = some opener) :
    w.finish text = .error (unterminated text w.tagStart) := by
  cases hw : w.mode with
  | code => rw [hw] at h; cases h
  | enclosed k => rw [hw] at h; cases h
  | substitution => rw [finish, hw]
  | conditional => rw [finish, hw]

/-- What is left at the end of the text is what scanning answers. -/
theorem Stands.finish_eq (h : w.Stands text) (hend : w.pos = byteLength text) :
    w.finish text = answer text := by
  cases h with
  | @code is rest bs hlexes hkept hmode hpos hdrop hbs =>
      obtain rfl := eq_nil_of_append_eq hlexes.source (by omega)
      rw [finish, hmode]
      exact answer_of_lexesTo hlexes hkept
  | @enclosed is rest k hlexes hopen hkept hmode hpos =>
      have hsource := hlexes.source
      rw [← List.append_assoc] at hsource
      obtain rfl := eq_nil_of_append_eq hsource (by omega)
      have hi : Item.Begins (k.opener ++ []) (.enclosed (k.opener ++ []) false) [] :=
        .enclosed k hopen rfl (.nil k.not_ends_nil)
      rw [finish, hmode]
      exact answer_of_lexesTo (hlexes.concat hi) (hkept.text rfl)
  | unclosed hlexes hkept hmode _ =>
      rw [finish, hmode]
      exact answer_of_lexesTo hlexes hkept
  | @tag is opener rest hlexes hmode hsegments hstart hpos =>
      have hsource := hlexes.source
      rw [← List.append_assoc] at hsource
      obtain rfl := eq_nil_of_append_eq hsource (by omega)
      have hlen : byteLength text = w.tagStart + byteLength (opener ++ []) := by
        rw [hstart, ← Text.byteLength_append, hlexes.source]
      rw [answer, hlexes.scan_eq_error (Tag.read?_of_opener hmode _), finish_of_opener hmode,
        unterminated_eq, Tag.Place.ofText, ← hstart, hlen]

/-- From wherever it stands, the walker comes to the answer of scanning. -/
theorem Stands.walk_eq (h : w.Stands text) : w.walk text = answer text := by
  fun_induction walk text w with
  | case1 w hlt e hround =>
      obtain ⟨f, rfl, hscan⟩ := h.exists_fault (Text.length_encode text ▸ hlt) hround
      rw [answer, hscan]
  | case2 w hlt next hround _ ih => exact ih (h.next (Text.length_encode text ▸ hlt) hround).2
  | case3 w hlt next hround hstalled =>
      exact absurd (h.next (Text.length_encode text ▸ hlt) hround).1 hstalled
  | case4 w hend =>
      rw [Text.length_encode] at hend
      exact h.finish_eq (Nat.le_antisymm h.pos_le (Nat.not_lt.1 hend))

/-- The walker after some rounds over a text. -/
def Reaches (text : List Char) (w : Walker) : Prop :=
  Relation.ReflTransGen
    (fun w next => w.pos < byteLength text ∧ w.round text = .ok next) start w

theorem Reaches.stands (h : Reaches text w) : w.Stands text := by
  induction h with
  | refl => exact stands_start text
  | tail _ hstep ih =>
      obtain ⟨hlt, hround⟩ := hstep
      exact (ih.next hlt hround).2

end Walk

end Walker

end Loopsmith
