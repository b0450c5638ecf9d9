import Loopsmith.Proofs.Template.Scanning
import Loopsmith.Proofs.Text.Bytes
import Mathlib.Data.List.Chain

/-!
# The layout of a template

Where the segments of a template stand in the bytes of its source, and what rendering makes of
these bytes.

The segments tile the source (`Span.Tile`): each starts where the one before it stops, none is
empty, and the last stops with the source.  What the bytes of a segment read is said by
`Placed.Reads`, for a conditional tag in three parts: what precedes its body, the body, and the
closing `>*/`.

Rendering is an edit of the source.  Each tag replaces its own span by something (`edit?`), and
`splice` carries the replacements out, copying the bytes between two of them as they are.  That
the outcome of rendering is such a splice says at once that no byte outside a tag is lost,
doubled, moved or looked at again.
-/

namespace Loopsmith

open Text (byteLength encode bytesOf)

/-! ## Slices -/

namespace Span

/-- The bytes that the span covers. -/
def slice (s : Span) (bytes : List UInt8) : List UInt8 :=
  (bytes.take s.stop).drop s.start

/-- The spans follow each other from `start` to `stop`, without gap and overlap, and none of
them is empty. -/
def Tile : Nat → List Span → Nat → Prop
  | start, [], stop => start = stop
  | start, s :: ss, stop => s.start = start ∧ s.start < s.stop ∧ Tile s.stop ss stop

theorem slice_encode {s : Span} {cs a m b : List Char} (hcs : cs = a ++ m ++ b)
    (hstart : s.start = byteLength a) (hstop : s.stop = byteLength a + byteLength m) :
    s.slice (encode cs) = encode m := by
  have hlen : (encode (a ++ m)).length = s.stop := by
    rw [Text.length_encode, Text.byteLength_append, hstop]
  rw [slice, hcs, Text.encode_append (a ++ m), List.take_left' hlen, Text.encode_append,
    List.drop_left' ((Text.length_encode a).trans hstart.symm)]

end Span

/-! ## Sources of segments -/

namespace Item

theorem Begins.source {cs rest : List Char} {i : Item} (h : i.Begins cs rest) :
    i.source ++ rest = cs := by
  obtain ⟨c, cs, rfl⟩ := List.exists_cons_of_ne_nil h.ne_nil
  have hread : read 0 c cs = .ok (i, rest) := read_eq_ok_iff.2 h
  exact read_source hread

theorem Begins.source_ne_nil {cs rest : List Char} {i : Item} (h : i.Begins cs rest) :
    i.source ≠ [] := by
  obtain ⟨c, cs, rfl⟩ := List.exists_cons_of_ne_nil h.ne_nil
  have hread : read 0 c cs = .ok (i, rest) := read_eq_ok_iff.2 h
  exact read_source_ne_nil hread

end Item

/-- The tag has a name, and its body does not hold the end of a tag. -/
def Tag.WellFormed : Tag → Prop
  | substitution _ name _ => IsName name
  | conditional _ name body => IsName name ∧ ¬ tagClose <:+: body

theorem Tag.not_tagClose_infix {body : List Char} (h : FirstEnd EndsTag (body ++ tagClose)) :
    ¬ tagClose <:+: body := by
  rintro ⟨u, v, huv⟩
  have heq := h.2 (u ++ tagClose) ⟨v ++ tagClose, by rw [← huv]; simp⟩ ⟨u, rfl⟩
  have hlen := congrArg List.length heq
  rw [← huv] at hlen
  simp [tagClose] at hlen

theorem Tag.Begins.wellFormed {cs rest : List Char} {t : Tag} (h : t.Begins cs rest) :
    t.WellFormed := by
  cases h with
  | substitution hname _ => exact hname
  | conditional hname hbody _ => exact ⟨hname, Tag.not_tagClose_infix hbody⟩

/-- What scanning leaves in its items. -/
def Item.WellFormed (i : Item) : Prop :=
  i.source ≠ [] ∧ ∀ t, i = .tag t → t.WellFormed

namespace Lexes

variable {cs : List Char} {is : List Item}

theorem source (h : Lexes cs is) : is.flatMap Item.source = cs := by
  induction h with
  | nil => rfl
  | cons hi _ ih => rw [List.flatMap_cons, ih, hi.source]

theorem wellFormed (h : Lexes cs is) : ∀ i ∈ is, i.WellFormed := by
  induction h with
  | nil => exact fun i hi => absurd hi List.not_mem_nil
  | cons hi _ ih =>
      refine List.forall_mem_cons.2 ⟨⟨hi.source_ne_nil, ?_⟩, ih⟩
      rintro t rfl
      cases hi with
      | tag ht => exact ht.wellFormed

end Lexes

/-! ## What scanning leaves in its pieces -/

namespace Piece

def isText : Piece → Bool
  | text _ => true
  | tag _ => false

def WellFormed : Piece → Prop
  | text t => t ≠ []
  | tag t => t.WellFormed

theorem WellFormed.source_ne_nil {p : Piece} (h : p.WellFormed) : p.source ≠ [] := by
  cases p with
  | text t => exact h
  | tag t => exact t.source_ne_nil

end Piece

namespace Segments

open Template (Placed)

variable {pos : Nat} {is : List Item} {ps : List Placed}

theorem source (h : Segments pos is ps) :
    (ps.map Placed.piece).flatMap Piece.source = is.flatMap Item.source := by
  induction h with
  | nil => rfl
  | tag _ ih =>
      rw [List.map_cons, List.flatMap_cons, List.flatMap_cons, ih]
      rfl
  | text _ _ _ htext _ ih =>
      rw [List.map_cons, List.flatMap_cons, List.flatMap_append, ih, ← htext]
      rfl

theorem wellFormed (h : Segments pos is ps) (hitems : ∀ i ∈ is, i.WellFormed) :
    ∀ p ∈ ps, p.piece.WellFormed := by
  induction h with
  | nil => exact fun p hp => absurd hp List.not_mem_nil
  | @tag pos t is ps _ ih =>
      obtain ⟨hi, his⟩ := List.forall_mem_cons.1 hitems
      exact List.forall_mem_cons.2 ⟨hi.2 t rfl, ih his⟩
  | @text pos run is text ps hne _ _ htext _ ih =>
      obtain ⟨hrun, his⟩ := List.forall_mem_append.1 hitems
      refine List.forall_mem_cons.2 ⟨?_, ih his⟩
      obtain ⟨i, run, rfl⟩ := List.exists_cons_of_ne_nil hne
      have hi : i.source ≠ [] := (hrun i List.mem_cons_self).1
      simp [Piece.WellFormed, htext, hi]

theorem isText_head (h : Segments pos is ps) (hnext : ∀ i ∈ is.head?, i.isText = false) :
    ∀ p ∈ ps.head?, p.piece.isText = false := by
  cases h with
  | nil => exact fun p hp => absurd hp (by simp)
  | tag _ =>
      rintro p ⟨⟩
      rfl
  | text hne hrun _ _ _ =>
      obtain ⟨i, run, rfl⟩ := List.exists_cons_of_ne_nil hne
      have htrue := hrun i List.mem_cons_self
      rw [hnext i rfl] at htrue
      cases htrue

/-- No two texts are neighbours. -/
theorem isChain (h : Segments pos is ps) :
    ps.IsChain fun p q => ¬ (p.piece.isText = true ∧ q.piece.isText = true) := by
  induction h with
  | nil => exact .nil
  | tag _ ih => exact ih.cons fun q _ hpq => Bool.noConfusion hpq.1
  | text _ _ hnext _ h ih =>
      refine ih.cons fun q hq hpq => ?_
      rw [h.isText_head hnext q hq] at hpq
      exact Bool.noConfusion hpq.2

end Segments

namespace Template

/-! ## Where the pieces stand -/

theorem tile_place (pos : Nat) {ps : List Piece} (h : ∀ p ∈ ps, p.WellFormed) :
    Span.Tile pos ((place pos ps).map Placed.span)
      (pos + byteLength (ps.flatMap Piece.source)) := by
  induction ps generalizing pos with
  | nil => rfl
  | cons p ps ih =>
      obtain ⟨hp, hps⟩ := List.forall_mem_cons.1 h
      have hpos := Text.byteLength_pos hp.source_ne_nil
      refine ⟨rfl, Nat.lt_add_of_pos_right hpos, ?_⟩
      rw [List.flatMap_cons, Text.byteLength_append, ← Nat.add_assoc]
      exact ih _ hps

/-- A piece that stands behind the text `a`. -/
def Placed.behind (a : List Char) (p : Piece) : Placed :=
  ⟨p, Span.ofWidth (byteLength a) (byteLength p.source)⟩

theorem place_cons (a : List Char) (p : Piece) (ps : List Piece) :
    place (byteLength a) (p :: ps) =
      .behind a p :: place (byteLength (a ++ p.source)) ps := by
  rw [place, Text.byteLength_append]
  rfl

theorem exists_of_mem_place {a : List Char} {ps : List Piece} {p : Placed}
    (h : p ∈ place (byteLength a) ps) :
    ∃ u v, ∃ q ∈ ps, ps.flatMap Piece.source = u ++ q.source ++ v ∧ p = .behind (a ++ u) q := by
  induction ps generalizing a with
  | nil => cases h
  | cons q ps ih =>
      rw [place_cons, List.mem_cons] at h
      rcases h with rfl | h
      · refine ⟨[], ps.flatMap Piece.source, q, List.mem_cons_self, rfl, ?_⟩
        rw [List.append_nil]
      · obtain ⟨u, v, r, hr, huv, hp⟩ := ih h
        refine ⟨q.source ++ u, v, r, List.mem_cons_of_mem q hr, ?_, ?_⟩
        · rw [List.flatMap_cons, huv]
          simp only [List.append_assoc]
        · rw [hp, List.append_assoc]

/-- What precedes the body of a conditional tag. -/
def conditionalFront (lead : Nat) (name : String) : List Char :=
  conditionalOpener ++ List.replicate lead ' ' ++ name.toList ++ [' ']

theorem source_conditional (lead : Nat) (name : String) (body : List Char) :
    (Tag.conditional lead name body).source = conditionalFront lead name ++ body ++ tagClose := by
  simp [Tag.source, conditionalFront]

/-- The bytes of a segment are what its piece says.  A conditional tag has its body strictly
inside, and nothing between the body and the closing marker. -/
def Placed.Reads (bytes : List UInt8) (p : Placed) : Prop :=
  match p.piece with
  | .text t => t ≠ [] ∧ p.span.slice bytes = encode t
  | .tag (.substitution lead name trail) =>
      IsName name ∧ p.span.slice bytes =
        encode (substitutionOpener ++ List.replicate lead ' ' ++ name.toList ++
          List.replicate (trail + 1) ' ' ++ tagClose)
  | .tag (.conditional lead name body) =>
      IsName name ∧ ¬ tagClose <:+: body ∧
        p.span.start < (p.bodySpan body).start ∧
        (p.bodySpan body).start ≤ (p.bodySpan body).stop ∧
        (p.bodySpan body).stop < p.span.stop ∧
        Span.slice ⟨p.span.start, (p.bodySpan body).start⟩ bytes =
          encode (conditionalFront lead name) ∧
        (p.bodySpan body).slice bytes = encode body ∧
        Span.slice ⟨(p.bodySpan body).stop, p.span.stop⟩ bytes = encode tagClose

section

variable {cs a b : List Char}

theorem bodySpan_behind (a : List Char) (lead : Nat) (name : String) (body : List Char) :
    (Placed.behind a (.tag (.conditional lead name body))).bodySpan body =
      Span.ofWidth (byteLength (a ++ conditionalFront lead name)) (byteLength body) := by
  simp only [Placed.bodySpan, Placed.behind, Piece.source, source_conditional, Span.ofWidth,
    Text.byteLength_append, Span.mk.injEq]
  omega

theorem slice_bodySpan {lead : Nat} {name : String} {body : List Char}
    (hcs : cs = a ++ (Tag.conditional lead name body).source ++ b) :
    ((Placed.behind a (.tag (.conditional lead name body))).bodySpan body).slice (encode cs) =
      encode body := by
  rw [bodySpan_behind]
  refine Span.slice_encode (a := a ++ conditionalFront lead name) (b := tagClose ++ b) ?_ rfl rfl
  rw [hcs, source_conditional]
  simp only [List.append_assoc]

/-- A well-formed piece that stands in a text can be read from the bytes of the text. -/
theorem reads_behind {p : Piece} (hp : p.WellFormed) (hcs : cs = a ++ p.source ++ b) :
    (Placed.behind a p).Reads (encode cs) := by
  have hslice : (Placed.behind a p).span.slice (encode cs) = encode p.source :=
    Span.slice_encode hcs rfl rfl
  rcases p with t | (⟨lead, name, trail⟩ | ⟨lead, name, body⟩)
  · exact ⟨hp, hslice⟩
  · exact ⟨hp, hslice⟩
  · have hbody := slice_bodySpan hcs
    have hfront : 0 < byteLength (conditionalFront lead name) :=
      Text.byteLength_pos (by simp [conditionalFront])
    have hclose : 0 < byteLength tagClose := Text.byteLength_pos (by simp [tagClose])
    have hstop : (Placed.behind a (.tag (.conditional lead name body))).span.stop =
        byteLength (a ++ conditionalFront lead name ++ body) + byteLength tagClose := by
      simp only [Placed.behind, Span.ofWidth, Piece.source, source_conditional,
        Text.byteLength_append]
      omega
    rw [Piece.source, source_conditional] at hcs
    refine ⟨hp.1, hp.2, ?_, ?_, ?_, ?_, hbody, ?_⟩
    · rw [bodySpan_behind]
      simp only [Placed.behind, Span.ofWidth, Text.byteLength_append]
      omega
    · rw [bodySpan_behind]
      exact Nat.le_add_right _ _
    · rw [bodySpan_behind, hstop]
      simp only [Span.ofWidth, Text.byteLength_append]
      omega
    · rw [bodySpan_behind]
      refine Span.slice_encode (a := a) (b := body ++ tagClose ++ b) ?_ rfl ?_
      · rw [hcs]
        simp only [List.append_assoc]
      · exact Text.byteLength_append _ _
    · rw [bodySpan_behind]
      refine Span.slice_encode (a := a ++ conditionalFront lead name ++ body) (b := b) ?_ ?_ hstop
      · rw [hcs]
        simp only [List.append_assoc]
      · exact (Text.byteLength_append _ _).symm

end

/-! ## Rendering as an edit -/

/-- What the segment does to the source: a tag whose parameter is bound replaces its own span,
by the value or by the bytes of its body. -/
def Placed.edit? (bytes : List UInt8) (ps : Parameters) (p : Placed) :
    Option (Span × List UInt8) :=
  match p.piece with
  | .text _ => none
  | .tag (.substitution _ name _) => (ps.get? name).map fun value => (p.span, bytesOf value)
  | .tag (.conditional _ name body) =>
      (ps.get? name).map fun value =>
        (p.span, if value = "0" then [] else (p.bodySpan body).slice bytes)

/-- The bytes from `pos` on with spans replaced; what is between the spans is copied. -/
def splice (bytes : List UInt8) (pos : Nat) : List (Span × List UInt8) → List UInt8
  | [] => bytes.drop pos
  | (s, new) :: edits => Span.slice ⟨pos, s.start⟩ bytes ++ new ++ splice bytes s.stop edits

theorem edit?_behind {ps : Parameters} {cs a b : List Char} {t : Tag} {value : String}
    (hcs : cs = a ++ t.source ++ b) (hvalue : ps.get? t.name = some value) :
    (Placed.behind a (.tag t)).edit? (encode cs) ps =
      some ((Placed.behind a (.tag t)).span, encode (expand value t)) := by
  cases t with
  | substitution lead name trail =>
      change (ps.get? name).map _ = _
      rw [show ps.get? name = some value from hvalue]
      rfl
  | conditional lead name body =>
      change (ps.get? name).map _ = _
      rw [show ps.get? name = some value from hvalue, Option.map_some, slice_bodySpan hcs, expand]
      split
      · rfl
      · rfl

theorem renderAll_cons {ps : Parameters} {p : Placed} {rest : List Placed} {cs out : List Char}
    (hp : renderPlaced ps p = .ok cs) (hrest : renderAll ps rest = .ok out) :
    renderAll ps (p :: rest) = .ok (cs ++ out) := by
  rw [renderAll, hp]
  dsimp only
  rw [hrest]

/-- Rendering the pieces behind `done ++ kept`, where the last edit ended with `done`, is the
edit of the bytes from there on. -/
theorem exists_renderAll_eq {ps : Parameters} {cs : List Char} (pieces : List Piece)
    (done kept : List Char) (hcs : cs = done ++ kept ++ pieces.flatMap Piece.source)
    (hbound : ∀ t, .tag t ∈ pieces → ps.contains t.name = true) :
    ∃ out, renderAll ps (place (byteLength (done ++ kept)) pieces) = .ok out ∧
      encode (kept ++ out) = splice (encode cs) (byteLength done)
        ((place (byteLength (done ++ kept)) pieces).filterMap
          (Placed.edit? (encode cs) ps)) := by
  induction pieces generalizing done kept with
  | nil =>
      refine ⟨[], rfl, ?_⟩
      rw [place, List.filterMap_nil, splice, hcs, List.flatMap_nil, List.append_nil, List.append_nil,
        Text.encode_append, List.drop_left' (Text.length_encode done)]
  | cons p pieces ih =>
      have hbound' : ∀ t, .tag t ∈ pieces → ps.contains t.name = true :=
        fun t ht => hbound t (List.mem_cons_of_mem p ht)
      rw [place_cons]
      cases p with
      | text t =>
          -- a text stays with what has been kept since the last edit
          obtain ⟨out, hout, hsplice⟩ := ih done (kept ++ t) (by simpa [Piece.source] using hcs)
            hbound'
          rw [← List.append_assoc] at hout hsplice
          refine ⟨t ++ out, renderAll_cons rfl hout, ?_⟩
          rw [List.filterMap_cons_none rfl, ← List.append_assoc]
          exact hsplice
      | tag t =>
          -- a tag ends what has been kept, and the next edit starts behind the tag
          obtain ⟨value, hvalue⟩ := Option.isSome_iff_exists.1 (hbound t List.mem_cons_self)
          have hcs' : cs = done ++ kept ++ t.source ++ pieces.flatMap Piece.source := by
            simpa [Piece.source] using hcs
          obtain ⟨out, hout, hsplice⟩ := ih (done ++ kept ++ t.source) [] (by simpa using hcs')
            hbound'
          rw [List.append_nil] at hout hsplice
          have hrender : renderPlaced ps (.behind (done ++ kept) (.tag t)) =
              .ok (expand value t) := by
            simp only [renderPlaced, Placed.behind, hvalue]
          refine ⟨expand value t ++ out, renderAll_cons hrender hout, ?_⟩
          have hkept : Span.slice ⟨byteLength done, byteLength (done ++ kept)⟩ (encode cs) =
              encode kept := by
            refine Span.slice_encode (a := done) (b := t.source ++ pieces.flatMap Piece.source)
              ?_ rfl (Text.byteLength_append _ _)
            rw [hcs', List.append_assoc (done ++ kept)]
          have hstop : (Placed.behind (done ++ kept) (.tag t)).span.stop =
              byteLength (done ++ kept ++ t.source) :=
            (Text.byteLength_append _ _).symm
          rw [List.filterMap_cons_some (edit?_behind hcs' hvalue), splice, hstop]
          rw [List.nil_append] at hsplice
          calc encode (kept ++ (expand value t ++ out))
              = encode kept ++ encode (expand value t) ++ encode out := by simp
            _ = _ := by rw [hsplice, ← hkept]; rfl

theorem source_of_parse {source : String} {t : Template} {is : List Item}
    (hlexes : Lexes source.toList is) (h : Segments 0 is t.placed) :
    t.pieces.flatMap Piece.source = source.toList := by
  have hsource := h.source
  rwa [placed, map_piece_place, hlexes.source] at hsource

/-- What is known of a source that parses, for each of its segments. -/
theorem exists_behind_of_parse {source : String} {t : Template} (h : parse source = .ok t)
    {p : Placed} (hp : p ∈ t.placed) :
    ∃ a q b, p = .behind a q ∧ source.toList = a ++ q.source ++ b := by
  obtain ⟨is, hlexes, hpieces⟩ := parse_eq_ok_iff.1 h
  have hsource := source_of_parse hlexes (segments_placed_iff.2 hpieces)
  obtain ⟨a, b, q, -, hq, rfl⟩ := exists_of_mem_place (a := []) hp
  exact ⟨a, q, b, rfl, hsource.symm.trans hq⟩

/-- **Segmentation loses nothing and rendering changes nothing but the tags.**  The segments of
a source that parses tile its bytes, no text is empty or next to another, and each segment reads
as its piece says.  Where every tag's parameter is bound, rendering succeeds, and its outcome is
the source with each tag's span replaced by the value, or by the body unless the value is `0`. -/
theorem parse_tiles_and_render_splices {source : String} {t : Template}
    (h : parse source = .ok t) :
    Span.Tile 0 (t.placed.map Placed.span) (byteLength source.toList) ∧
      (t.placed.IsChain fun p q => ¬ (p.piece.isText = true ∧ q.piece.isText = true)) ∧
      (∀ p ∈ t.placed, p.Reads (bytesOf source)) ∧
      ∀ ps : Parameters, (∀ tag, .tag tag ∈ t.pieces → ps.contains tag.name = true) →
        ∃ out, t.render ps = .ok out ∧
          bytesOf out = splice (bytesOf source) 0
            (t.placed.filterMap (Placed.edit? (bytesOf source) ps)) := by
  obtain ⟨is, hlexes, hpieces⟩ := parse_eq_ok_iff.1 h
  have hsegments := segments_placed_iff.2 hpieces
  have hsource := source_of_parse hlexes hsegments
  have hwell : ∀ p ∈ t.pieces, p.WellFormed := by
    rw [← map_piece_place 0 t.pieces]
    exact List.forall_mem_map.2 (hsegments.wellFormed hlexes.wellFormed)
  refine ⟨?_, hsegments.isChain, ?_, ?_⟩
  · have htile := tile_place 0 hwell
    rwa [hsource, Nat.zero_add] at htile
  · intro p hp
    obtain ⟨u, v, q, hq, huv, rfl⟩ := exists_of_mem_place (a := []) hp
    exact reads_behind (hwell q hq) (hsource.symm.trans huv)
  · intro ps hbound
    obtain ⟨out, hout, hsplice⟩ := exists_renderAll_eq t.pieces [] [] hsource.symm hbound
    refine ⟨String.ofList out, ?_, ?_⟩
    · change (renderAll ps (place 0 t.pieces)).map String.ofList = _
      rw [show renderAll ps (place 0 t.pieces) = .ok out from hout]
      rfl
    · rw [bytesOf, String.toList_ofList]
      exact hsplice

/-- A value that looks like a tag is copied as it is, and a character may take several bytes. -/
theorem parse_tiles_and_render_splices_tag_value :
    ∃ t, parse "é/*<DOPING N  >*/;/*<DOPING_IF D x>*/" = .ok t ∧
      Span.Tile 0 (t.placed.map Placed.span) 38 ∧
      ∃ out, t.render ⟨[("N", "/*<DOPING D >*/"), ("D", "1")]⟩ = .ok out ∧
        bytesOf out = splice (bytesOf "é/*<DOPING N  >*/;/*<DOPING_IF D x>*/") 0
          [(⟨2, 18⟩, bytesOf "/*<DOPING D >*/"), (⟨19, 38⟩, bytesOf "x")] := by
  have hparse : parse "é/*<DOPING N  >*/;/*<DOPING_IF D x>*/" =
      .ok ⟨[.text ['é'], .tag (.substitution 0 "N" 1), .text [';'],
        .tag (.conditional 0 "D" ['x'])]⟩ := by
    decide +kernel
  obtain ⟨htile, -, -, hrender⟩ := parse_tiles_and_render_splices hparse
  obtain ⟨out, hout, hsplice⟩ :=
    hrender ⟨[("N", "/*<DOPING D >*/"), ("D", "1")]⟩ (by
      intro tag htag
      simp only [List.mem_cons, Piece.tag.injEq, List.not_mem_nil, or_false, reduceCtorEq,
        false_or] at htag
      rcases htag with rfl | rfl
      · decide
      · decide)
  refine ⟨_, hparse, htile, out, hout, hsplice.trans ?_⟩
  decide +kernel

end Template
end Loopsmith
