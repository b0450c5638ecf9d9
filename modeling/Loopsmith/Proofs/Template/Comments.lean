import Loopsmith.Proofs.Template.Composition

/-!
# Where a block comment closes

In C a comment closes at the first `*/` behind its opener.  A commented-out tag brings a `*/` of
its own, and to keep it inside, a `*/` directly behind a `>` is passed over.  The scanner does not
ask whether there was a tag.  So a comment without one closes where C closes it if its text does
not end in `>`, and otherwise takes in what follows, tags included, up to the next `*/` that is not
behind a `>`.  `comment_closes_unless_angle` has both halves.
-/

namespace Loopsmith

open Text (byteLength)

/-! ## The first end of a comment -/

/-- What closes a comment. -/
def commentClose : List Char :=
  ['*', '/']

/-- A text that is nowhere complete, in front of another: what is complete is so by the other. -/
theorem Cut.prepend {Ends Ends' : List Char → Prop} {front cs : List Char} {e : Enclosed}
    (hfront : Unended Ends front) (hiff : ∀ t, Ends (front ++ t) ↔ Ends' t) (h : Cut Ends' cs e) :
    Cut Ends (front ++ cs) { e with text := front ++ e.text } := by
  -- a complete text reaches beyond the front
  have hsplit : ∀ t, t <+: front ++ cs → Ends t → ∃ u, t = front ++ u ∧ u <+: cs ∧ Ends' u := by
    intro t ht hends
    rcases List.prefix_or_prefix_of_prefix ht (List.prefix_append front cs) with hpre | ⟨u, rfl⟩
    · exact absurd hends (hfront t hpre)
    · exact ⟨u, rfl, (List.prefix_append_right_inj front).1 ht, (hiff u).1 hends⟩
  cases h with
  | @closed text rest hcs hf =>
      refine .closed (by rw [List.append_assoc, hcs]) ⟨(hiff text).2 hf.1, fun t ht hends => ?_⟩
      have hlong : t <+: front ++ cs := ht.trans ⟨rest, by rw [List.append_assoc, hcs]⟩
      obtain ⟨u, rfl, -, hu⟩ := hsplit t hlong hends
      rw [hf.2 u ((List.prefix_append_right_inj front).1 ht) hu]
  | unclosed hun =>
      refine .unclosed fun t ht hends => ?_
      obtain ⟨u, rfl, hu, hends'⟩ := hsplit t ht hends
      exact hun u hu hends'

section

variable {x : List Char}

/-- Every `*/` of the text is directly behind a `>`, so that a comment passes over it. -/
def PassedOver (x : List Char) : Prop :=
  ∀ u v, x = u ++ commentClose ++ v → u.getLast? = some '>'

theorem passedOver_of_absent (h : ¬ commentClose <:+: x) : PassedOver x :=
  fun u v hx => absurd ⟨u, v, hx.symm⟩ h

/-- Behind a text that is passed over, nothing is complete before the `*/` that follows. -/
theorem eq_of_endsBlock {before : Char} {t : List Char} (hx : PassedOver x)
    (ht : t <+: x ++ commentClose) (hends : EndsBlock before t) : t = x ++ commentClose := by
  obtain ⟨u, rfl, hangle⟩ := hends
  have hnot : ∀ v, u ++ commentClose ++ v ≠ x := by
    intro v hv
    rw [List.getLast?_cons, hx u v hv.symm] at hangle
    exact hangle rfl
  rcases List.prefix_or_prefix_of_prefix ht (List.prefix_append x commentClose) with hpre | ⟨v, hv⟩
  · obtain ⟨v, hv⟩ := hpre
    exact absurd hv (hnot v)
  · rw [← hv] at ht ⊢
    have hprefix : v <+: commentClose := (List.prefix_append_right_inj x).1 ht
    have hlast : (x ++ v).getLast? = some '/' := by
      rw [hv]
      simp
    obtain rfl | ⟨v, rfl, rfl | rfl⟩ : v = [] ∨ ∃ w, v = '*' :: w ∧ (w = [] ∨ w = ['/']) := by
      simpa [commentClose, List.prefix_cons_iff] using hprefix
    · rw [List.append_nil] at hv
      exact absurd (by rw [hv, List.append_nil]; rfl) (hnot [])
    · simp at hlast
    · rfl

theorem getLast?_cons_ne {before c : Char} (hbefore : before ≠ c) (hx : x.getLast? ≠ some c) :
    (before :: x).getLast? ≠ some c := by
  rw [List.getLast?_cons]
  cases hlast : x.getLast? with
  | none => simpa using hbefore
  | some d =>
      rw [hlast] at hx
      simpa using hx

/-- A comment closes behind its text exactly if all `*/` in the text are passed over and the text
does not end in `>`. -/
theorem firstEnd_comment_iff :
    FirstEnd (EndsBlock '*') (x ++ commentClose) ↔ PassedOver x ∧ x.getLast? ≠ some '>' := by
  constructor
  · rintro ⟨⟨u, hu, hlast⟩, hfirst⟩
    obtain rfl : x = u := List.append_cancel_right hu
    refine ⟨fun u v hx => ?_, fun hangle => hlast ?_⟩
    · by_contra hne
      have hends : EndsBlock '*' (u ++ commentClose) := ⟨u, rfl, getLast?_cons_ne (by decide) hne⟩
      have heq := congrArg List.length (hfirst _ ⟨v ++ commentClose, by simp [hx]⟩ hends)
      simp [hx, commentClose] at heq
    · rw [List.getLast?_cons, hangle]
      rfl
  · rintro ⟨hx, hlast⟩
    exact ⟨⟨x, rfl, getLast?_cons_ne (by decide) hlast⟩,
      fun _ ht hends => eq_of_endsBlock hx ht hends⟩

/-- A comment whose text ends in `>` does not close behind it. -/
theorem unended_comment (hx : PassedOver x) (hlast : x.getLast? = some '>') :
    Unended (EndsBlock '*') (x ++ commentClose) := by
  intro t ht hends
  rw [eq_of_endsBlock hx ht hends] at hends
  obtain ⟨u, hu, hne⟩ := hends
  have hxu : x = u := List.append_cancel_right hu
  rw [← hxu, List.getLast?_cons, hlast] at hne
  exact hne rfl

/-- Behind a `*/` that has been passed over, a comment is complete as if it began there. -/
theorem endsBlock_append_commentClose (hlast : x.getLast? = some '>') (t : List Char) :
    EndsBlock '*' (x ++ commentClose ++ t) ↔ EndsBlock '/' t := by
  have hbefore : ∀ u, ('*' :: (x ++ commentClose ++ u)).getLast? = ('/' :: u).getLast? := by
    intro u
    have hsplit : '*' :: (x ++ commentClose ++ u) = ('*' :: x ++ ['*']) ++ '/' :: u := by
      simp [commentClose]
    rw [hsplit, List.getLast?_append_of_ne_nil _ (List.cons_ne_nil '/' u)]
  constructor
  · rintro ⟨u, hu, hne⟩
    rcases List.append_eq_append_iff.1 hu with ⟨v, rfl, rfl⟩ | ⟨v, hv, hvt⟩
    · rw [hbefore] at hne
      exact ⟨v, rfl, hne⟩
    · -- the end would have to overlap the `*/` that has been passed over
      rcases v with _ | ⟨a, _ | ⟨b, v⟩⟩
      · exact ⟨[], hvt.symm, by simp⟩
      · obtain ⟨rfl, -⟩ := List.cons.inj hvt
        have hstar := congrArg List.getLast? hv
        simp [commentClose] at hstar
      · obtain ⟨rfl, rfl, rfl, rfl⟩ : '*' = a ∧ '/' = b ∧ v = [] ∧ t = [] := by simpa using hvt
        have hxu : x = u := List.append_cancel_right hv
        rw [← hxu, List.getLast?_cons, hlast] at hne
        exact absurd rfl hne
  · rintro ⟨u, rfl, hne⟩
    refine ⟨x ++ commentClose ++ u, (List.append_assoc _ _ _).symm, ?_⟩
    rwa [hbefore]

end

/-! ## The comment as an item -/

/-- The comment with the text `x`, as C has it. -/
def comment (x : List Char) : List Char :=
  Enclosure.block.opener ++ x ++ commentClose

/-- A text that lacks the character `c` does not reach beyond it. -/
theorem isPrefix_of_not_mem {a x rest : List Char} {c : Char} (hc : c ∉ a)
    (h : a <+: x ++ c :: rest) : a <+: x := by
  rcases List.prefix_or_prefix_of_prefix h (List.prefix_append x (c :: rest)) with hpre | ⟨u, rfl⟩
  · exact hpre
  · have hu : u <+: c :: rest := (List.prefix_append_right_inj x).1 h
    rcases List.prefix_cons_iff.1 hu with rfl | ⟨v, rfl, -⟩
    · simp
    · exact absurd (by simp) hc

/-- A comment that does not open a tag before it is closed opens none. -/
theorem not_opensTag_comment {x : List Char} (h : ¬ OpensTag (Enclosure.block.opener ++ x))
    (more : List Char) : ¬ OpensTag (comment x ++ more) := by
  have hcomment : comment x ++ more = '/' :: '*' :: (x ++ '*' :: '/' :: more) := by
    simp [comment, Enclosure.opener, commentClose]
  rw [hcomment]
  rintro (hopen | hopen)
  · refine h (.inl ?_)
    have hname := List.cons_prefix_cons.1 (List.cons_prefix_cons.1 hopen).2
    exact List.cons_prefix_cons.2 ⟨rfl, List.cons_prefix_cons.2
      ⟨rfl, isPrefix_of_not_mem (by decide) hname.2⟩⟩
  · refine h (.inr ?_)
    have hname := List.cons_prefix_cons.1 (List.cons_prefix_cons.1 hopen).2
    exact List.cons_prefix_cons.2 ⟨rfl, List.cons_prefix_cons.2
      ⟨rfl, isPrefix_of_not_mem (by decide) hname.2⟩⟩

namespace Item

/-- A comment whose text does not end in `>` is an item. -/
theorem begins_comment {x : List Char} (hopen : ¬ OpensTag (Enclosure.block.opener ++ x))
    (hx : ¬ commentClose <:+: x) (hlast : x.getLast? ≠ some '>') (more : List Char) :
    (enclosed (comment x) true).Begins (comment x ++ more) more := by
  have hcut : Cut (EndsBlock '*') (x ++ commentClose ++ more) ⟨x ++ commentClose, true, more⟩ :=
    .closed rfl (firstEnd_comment_iff.2 ⟨passedOver_of_absent hx, hlast⟩)
  have hbegins := Begins.enclosed .block (not_opensTag_comment hopen more) (by simp [comment]) hcut
  rwa [← List.append_assoc] at hbegins

/-- A comment whose text ends in `>` is the beginning of an item. -/
theorem begins_comment_angle {x : List Char} (hopen : ¬ OpensTag (Enclosure.block.opener ++ x))
    (hx : ¬ commentClose <:+: x) (hlast : x.getLast? = some '>') (more : List Char) :
    let e := Enclosed.block '/' more
    (enclosed (comment x ++ e.text) e.closed).Begins (comment x ++ more) e.rest := by
  intro e
  have hcut := (cut_block '/' more).prepend (unended_comment (passedOver_of_absent hx) hlast)
    (endsBlock_append_commentClose hlast)
  have hbegins := Begins.enclosed .block (not_opensTag_comment hopen more) (by simp [comment]) hcut
  rwa [← List.append_assoc, ← List.append_assoc] at hbegins

/-- What follows the item at the head of a text is scanned from where the item ends. -/
theorem Begins.scan_eq {i : Item} {cs rest : List Char} (h : i.Begins cs rest) (pos : Nat) :
    scan pos cs = (scan (pos + byteLength i.source) rest).map (i :: ·) := by
  obtain ⟨c, cs, rfl⟩ := List.exists_cons_of_ne_nil h.ne_nil
  exact scan_cons_of_read (read_eq_ok_iff.2 h)

end Item

namespace Template

theorem toList_comment (x s : String) :
    ("/*" ++ x ++ "*/" ++ s).toList = comment x.toList ++ s.toList := by
  rw [String.toList_append, String.toList_append, String.toList_append]
  rfl

/-- **A comment closes where C closes it unless its text ends in `>`.**  Let `x` hold no `*/`, and
let the comment not begin as a tag.  If `x` does not end in `>`, the comment is exactly `/*x*/`:
what follows is scanned as it is by itself, with the same fault or the same tags, only further on,
and is rendered as it is by itself.  If `x` ends in `>`, the comment goes on behind its `*/`, up to
the next `*/` that is not behind a `>`. -/
theorem comment_closes_unless_angle {x : String} (hx : ¬ commentClose <:+: x.toList)
    (hopen : ¬ OpensTag (Enclosure.block.opener ++ x.toList)) (s : String) :
    (x.toList.getLast? ≠ some '>' →
      let width := byteLength (comment x.toList)
      Item.scan 0 ("/*" ++ x ++ "*/" ++ s).toList =
          (Item.scan width s.toList).map (.enclosed (comment x.toList) true :: ·) ∧
        (∀ e, parse s = .error e → parse ("/*" ++ x ++ "*/" ++ s) = .error (e.shift width)) ∧
        ∀ t, parse s = .ok t → ∃ t', parse ("/*" ++ x ++ "*/" ++ s) = .ok t' ∧
          t'.tags = t.tags.map (·.shift width) ∧
          ∀ ps out, t.render ps = .ok out → t'.render ps = .ok ("/*" ++ x ++ "*/" ++ out)) ∧
    (x.toList.getLast? = some '>' →
      let e := Enclosed.block '/' s.toList
      Item.scan 0 ("/*" ++ x ++ "*/" ++ s).toList =
        (Item.scan (byteLength (comment x.toList ++ e.text)) e.rest).map
          (.enclosed (comment x.toList ++ e.text) e.closed :: ·)) := by
  rw [toList_comment]
  constructor
  · intro hlast width
    have hscan := (Item.begins_comment hopen hx hlast s.toList).scan_eq 0
    have hadd := Item.scan_add 0 width s.toList
    rw [Nat.zero_add] at hscan hadd
    refine ⟨hscan, ?_, ?_⟩
    · intro e he
      obtain ⟨fault, hfault, rfl⟩ := parse_eq_error_iff.1 he
      rw [hfault] at hadd
      refine parse_eq_error_iff.2 ⟨fault.shift width, ?_, rfl⟩
      rw [toList_comment, hscan]
      exact congrArg _ hadd
    · intro t ht
      obtain ⟨is, his, hpieces⟩ := parse_eq_ok_iff.1 ht
      have hlexes : Lexes ("/*" ++ x ++ "*/" ++ s).toList
          (.enclosed (comment x.toList) true :: is) := by
        rw [toList_comment]
        exact .cons (Item.begins_comment hopen hx hlast s.toList) his
      refine ⟨⟨gather (.enclosed (comment x.toList) true :: is)⟩,
        parse_eq_ok_iff.2 ⟨_, hlexes, rfl⟩, ?_, ?_⟩
      · have htags : t.tags = tagsFrom 0 is := by
          rw [tags, placed, hpieces]
          rfl
        rw [htags, ← tagsFrom_add]
        exact tagsFrom_text rfl 0 is
      · intro ps out hout
        rw [render_eq_ok_iff rfl, toList_comment]
        exact .text rfl ((render_eq_ok_iff hpieces).1 hout)
  · intro hlast e
    have hscan := (Item.begins_comment_angle hopen hx hlast s.toList).scan_eq 0
    rwa [Nat.zero_add] at hscan

/-- Behind a comment that ends in a star, a tag is found. -/
theorem comment_closes_unless_angle_star :
    ∃ t', parse ("/*" ++ "> é*" ++ "*/" ++ "/*<DOPING N >*/") = .ok t' ∧
      t'.tags = [⟨.substitution 0 "N" 0, ⟨9, 24⟩, none⟩] ∧
      t'.render ⟨[("N", "1")]⟩ = .ok ("/*" ++ "> é*" ++ "*/" ++ "1") := by
  have hparse : parse "/*<DOPING N >*/" = .ok ⟨[.tag (.substitution 0 "N" 0)]⟩ := by decide +kernel
  obtain ⟨hcloses, -⟩ := @comment_closes_unless_angle "> é*" (by decide) (by decide)
    "/*<DOPING N >*/"
  obtain ⟨-, -, hfound⟩ := hcloses (by decide)
  obtain ⟨t', ht', htags, hrender⟩ := hfound _ hparse
  exact ⟨t', ht', htags.trans (by decide +kernel), hrender _ "1" (by decide +kernel)⟩

/-- A comment that ends in an arrow swallows the tag behind it. -/
theorem comment_swallows_tag :
    ∃ x s : String, ¬ commentClose <:+: x.toList ∧ ¬ substitutionOpener <:+: x.toList ∧
      ¬ conditionalOpener <:+: x.toList ∧ ¬ OpensTag (Enclosure.block.opener ++ x.toList) ∧
      (∃ t, parse s = .ok t ∧ t.tags = [⟨.substitution 0 "N" 0, ⟨1, 16⟩, none⟩]) ∧
      ∃ t', parse ("/*" ++ x ++ "*/" ++ s) = .ok t' ∧ t'.tags = [] := by
  refine ⟨" a->", " /*<DOPING N >*/", by decide, by decide, by decide, by decide, ?_, ?_⟩
  · exact ⟨⟨[.text [' '], .tag (.substitution 0 "N" 0)]⟩, by decide +kernel, by decide +kernel⟩
  · exact ⟨⟨[.text "/* a->*/ /*<DOPING N >*/".toList]⟩, by decide +kernel, by decide +kernel⟩

end Template
end Loopsmith
