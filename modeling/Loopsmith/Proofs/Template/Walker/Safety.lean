import Loopsmith.Proofs.Template.Walker.Progress

/-!
# Walks stay inside of the text

A walk answers what `Template.parse` answers, and none of its answers is that an access was out of
range.  What is left to see is that the same holds for rendering from the spans that it leaves, and
that these spans, and those of faults, lie between the characters of the source.
-/

namespace Loopsmith

open Text (byteLength)

/-! ## Spans -/

/-- A span of a text that begins and ends between characters. -/
structure Span.Within (text : List Char) (s : Span) : Prop where
  start_le : s.start ≤ s.stop
  stop_le : s.stop ≤ byteLength text
  boundary_start : Text.IsBoundary text s.start
  boundary_stop : Text.IsBoundary text s.stop

theorem Span.within_ofWidth {text a m b : List Char} (h : text = a ++ m ++ b) :
    Span.Within text (Span.ofWidth (byteLength a) (byteLength m)) := by
  subst h
  refine ⟨Nat.le_add_right _ _, ?_, ⟨a, m ++ b, List.append_assoc _ _ _, rfl⟩,
    ⟨a ++ m, b, rfl, (Text.byteLength_append a m).symm⟩⟩
  rw [Span.ofWidth, Text.byteLength_append, Text.byteLength_append]
  exact Nat.le_add_right _ _

namespace Template

open Text (textIn)

section

variable {text a b : List Char} {p : Piece}

theorem eq_append_around_body {lead : Nat} {name : String} {body : List Char}
    (h : text = a ++ (Tag.conditional lead name body).source ++ b) :
    text = a ++ conditionalFront lead name ++ body ++ (tagClose ++ b) := by
  rw [h, source_conditional]
  simp only [List.append_assoc]

/-- The spans of a piece that stands in a text are spans of the text. -/
theorem within_of_mem_spans (h : text = a ++ p.source ++ b) :
    ∀ s ∈ (Placed.behind a p).segment.spans, s.Within text := by
  have hspan : (Placed.behind a p).span.Within text := Span.within_ofWidth h
  rcases p with t | (⟨lead, name, trail⟩ | ⟨lead, name, body⟩)
  · exact List.forall_mem_singleton.2 hspan
  · exact List.forall_mem_singleton.2 hspan
  · refine List.forall_mem_cons.2 ⟨?_, List.forall_mem_singleton.2 hspan⟩
    rw [bodySpan_behind]
    exact Span.within_ofWidth (eq_append_around_body h)

/-- A piece can be rendered from the text it stands in. -/
theorem render_segment (h : text = a ++ p.source ++ b) (ps : Parameters) :
    (Placed.behind a p).segment.render text ps = .ok (renderPlaced ps (.behind a p)) := by
  rcases p with t | (⟨lead, name, trail⟩ | ⟨lead, name, body⟩)
  · have hcut : textIn text (Placed.behind a (.text t)).span = .ok t := by
      rw [h]
      exact Text.textIn_append a t b
    change (textIn text (Placed.behind a (.text t)).span).map Except.ok = _
    rw [hcut]
    rfl
  · simp only [Placed.behind, Placed.segment, Segment.render, renderPlaced, Tag.name]
    cases ps.get? name with
    | none => rfl
    | some value => rfl
  · have hcut : textIn text ((Placed.behind a (.tag (.conditional lead name body))).bodySpan body) =
        .ok body := by
      rw [bodySpan_behind, eq_append_around_body h]
      exact Text.textIn_append _ body _
    simp only [Placed.behind] at hcut
    simp only [Placed.behind, Placed.segment, Segment.render, renderPlaced, Tag.name, hcut]
    cases ps.get? name with
    | none => rfl
    | some value =>
        dsimp only [expand]
        split
        · rfl
        · rfl

end

theorem renderAll_segments {text : List Char} {ps : Parameters} {placed : List Placed}
    (h : ∀ p ∈ placed, p.segment.render text ps = .ok (renderPlaced ps p)) :
    Segment.renderAll text ps (placed.map Placed.segment) = .ok (renderAll ps placed) := by
  induction placed with
  | nil => rfl
  | cons p placed ih =>
      obtain ⟨hp, hplaced⟩ := List.forall_mem_cons.1 h
      rw [List.map_cons, Segment.renderAll, renderAll, hp, ih hplaced]
      rcases renderPlaced ps p with e | cs
      · rfl
      · rcases renderAll ps placed with e | out
        · rfl
        · rfl

/-- A fault has a span of the text, and if it is at a character, the span is this character. -/
theorem within_of_scan_eq_error {text : List Char} {e : TagError}
    (h : Item.scan 0 text = .error e) :
    e.span.Within text ∧ ∀ c, e.fault = .invalidNameCharacter c ∨ e.fault = .expectedClose c →
      textIn text e.span = .ok [c] := by
  obtain ⟨is, rest, hlexes, hread⟩ := Item.exists_of_scan_eq_error h
  obtain ⟨-, hfaulty⟩ := Tag.faulty_of_read? hread
  rw [Nat.zero_add] at hfaulty
  have hsource := hlexes.source
  cases hfaulty with
  | cutOff =>
      refine ⟨?_, fun c hc => ?_⟩
      · exact Span.within_ofWidth (b := []) (by rw [List.append_nil, hsource])
      · rcases hc with hc | hc <;> cases hc
  | @malformed fault c before after hcs hfault _ =>
      have htext : text = is.flatMap Item.source ++ before ++ [c] ++ after := by
        rw [← hsource, hcs]
        simp only [List.append_assoc, List.singleton_append]
      rw [← Text.byteLength_append]
      refine ⟨Span.within_ofWidth htext, fun d hd => ?_⟩
      have hdc : d = c := by
        cases hfault with
        | emptyName => rcases hd with hd | hd <;> cases hd
        | invalidNameCharacter => rcases hd with hd | hd <;> cases hd; rfl
        | expectedClose => rcases hd with hd | hd <;> cases hd; rfl
      rw [hdc, htext]
      exact Text.textIn_append _ [c] after

theorem span_of_renderPlaced_eq_error {ps : Parameters} {p : Placed} {e : RenderError}
    (h : renderPlaced ps p = .error e) : e.span = p.span := by
  unfold renderPlaced at h
  split at h
  · cases h
  · split at h
    · cases h
    · cases h
      rfl

theorem exists_span_of_renderAll_eq_error {ps : Parameters} {placed : List Placed} {e : RenderError}
    (h : renderAll ps placed = .error e) : ∃ p ∈ placed, e.span = p.span := by
  induction placed with
  | nil => cases h
  | cons p placed ih =>
      rw [renderAll] at h
      cases hp : renderPlaced ps p with
      | error e' =>
          rw [hp] at h
          cases h
          exact ⟨p, List.mem_cons_self, span_of_renderPlaced_eq_error hp⟩
      | ok cs =>
          cases hrest : renderAll ps placed with
          | error e' =>
              rw [hp, hrest] at h
              cases h
              obtain ⟨q, hq, hspan⟩ := ih hrest
              exact ⟨q, List.mem_cons_of_mem p hq, hspan⟩
          | ok out =>
              rw [hp, hrest] at h
              cases h

/-- A parameter that is missing is reported with the span of its tag. -/
theorem exists_span_of_render_eq_error {t : Template} {ps : Parameters} {e : RenderError}
    (h : t.render ps = .error e) : ∃ p ∈ t.placed, e.span = p.span := by
  cases hrender : renderAll ps t.placed with
  | error e' =>
      rw [render, hrender] at h
      cases h
      exact exists_span_of_renderAll_eq_error hrender
  | ok out =>
      rw [render, hrender] at h
      cases h

/-- **Scanning and rendering stay inside of the source.**  A walk over the bytes of any source
comes forward with every round or ends with a fault, and its position is never behind the end.  It
answers what `parse` answers, so no access on the way was out of range and no round was for
nothing.  The same holds for rendering from the spans.  All spans, of segments and of errors, lie in
the source, between characters, and a fault that names a character has the span of just this
character; the replacement for a character that is not there is never reported. -/
theorem walk_in_range (source : String) :
    (∀ w, Walker.Reaches source.toList w → w.pos ≤ byteLength source.toList ∧
      (w.pos < byteLength source.toList →
        (∃ e, w.round source.toList = .error (.fault e)) ∨
          ∃ next, w.round source.toList = .ok next ∧ w.pos < next.pos ∧
            next.pos ≤ byteLength source.toList)) ∧
      (∀ t, parse source = .ok t →
        Walker.start.walk source.toList = .ok t.segments ∧
          (∀ s ∈ t.segments, ∀ span ∈ s.spans, span.Within source.toList) ∧
          ∀ ps, (Segment.renderAll source.toList ps t.segments).map (·.map String.ofList) =
              .ok (t.render ps) ∧
            ∀ e, t.render ps = .error e → e.span.Within source.toList) ∧
      ∀ e, parse source = .error e → ∃ fault span, e = .tag ⟨fault, span⟩ ∧
        Walker.start.walk source.toList = .error (.fault ⟨fault, span⟩) ∧
          span.Within source.toList ∧
          ∀ c, fault = .invalidNameCharacter c ∨ fault = .expectedClose c →
            textIn source.toList span = .ok [c] := by
  have hwalk := (Walker.stands_start source.toList).walk_eq
  refine ⟨fun w hw => ?_, fun t ht => ?_, fun e he => ?_⟩
  · have hstands := hw.stands
    refine ⟨hstands.pos_le, fun hlt => ?_⟩
    rcases hstands.proceeds hlt with ⟨e, hfault, -⟩ | ⟨next, hok, hforward, hnext⟩
    · exact .inl ⟨e, hfault⟩
    · exact .inr ⟨next, hok, hforward, hnext.pos_le⟩
  · have hplaced : ∀ p ∈ t.placed, _ := fun p hp => exists_behind_of_parse ht hp
    refine ⟨?_, ?_, fun ps => ⟨?_, fun e he => ?_⟩⟩
    · obtain ⟨is, hlexes, hpieces⟩ := parse_eq_ok_iff.1 ht
      obtain ⟨pieces⟩ := t
      cases hpieces
      rw [hwalk, Walker.answer, Item.scan_eq_ok_iff.2 hlexes]
      rfl
    · refine List.forall_mem_map.2 fun p hp => ?_
      obtain ⟨a, q, b, rfl, hsource⟩ := hplaced p hp
      exact within_of_mem_spans hsource
    · have hrender : Segment.renderAll source.toList ps t.segments =
          .ok (renderAll ps t.placed) := by
        refine renderAll_segments fun p hp => ?_
        obtain ⟨a, q, b, rfl, hsource⟩ := hplaced p hp
        exact render_segment hsource ps
      rw [hrender]
      rfl
    · obtain ⟨p, hp, hspan⟩ := exists_span_of_render_eq_error he
      obtain ⟨a, q, b, rfl, hsource⟩ := hplaced p hp
      rw [hspan]
      exact Span.within_ofWidth hsource
  · obtain ⟨f, hscan, rfl⟩ := parse_eq_error_iff.1 he
    obtain ⟨hwithin, hchar⟩ := within_of_scan_eq_error hscan
    refine ⟨f.fault, f.span, rfl, ?_, hwithin, hchar⟩
    rw [hwalk, Walker.answer, hscan]

end Template
end Loopsmith
