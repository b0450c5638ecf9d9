import Loopsmith.Proofs.Template.Comments
import Loopsmith.Proofs.Template.OnePass
import Loopsmith.Proofs.Template.Walker.Progress

/-!
# Text that is left alone

Rendering changes nothing but tags.  So a text in which no tag opens is its own rendering, whatever
its literals and comments look like, closed or not.  And a literal or a comment is its own
rendering, whatever is in it, as long as it is one.

What that takes is that its text does not end it.  A literal may hold its quote behind a backslash
(`Quotable`), a line comment no newline, and a block comment no `*/` except directly behind a `>`,
and no `>` at its end.  These conditions are exact (`Item.begins_around_iff`): with them the whole
is one item that has its end, and without them it is not.  The walker goes over such an item in two
rounds and is then back in code.
-/

namespace Loopsmith

open Text (byteLength encode)

/-! ## Texts in which no tag opens -/

/-- A text with no tag opener in it. -/
def Untagged (cs : List Char) : Prop :=
  ¬ substitutionOpener <:+: cs ∧ ¬ conditionalOpener <:+: cs

namespace Untagged

variable {cs : List Char}

theorem not_opensTag (h : Untagged cs) : ¬ OpensTag cs := by
  rintro (hopen | hopen)
  · exact h.1 hopen.isInfix
  · exact h.2 hopen.isInfix

theorem of_suffix {rest : List Char} (h : Untagged cs) (hrest : rest <:+ cs) : Untagged rest :=
  ⟨fun hopen => h.1 (hopen.trans hrest.isInfix), fun hopen => h.2 (hopen.trans hrest.isInfix)⟩

end Untagged

theorem Item.isText_readPlain (c : Char) (cs : List Char) : (readPlain c cs).1.isText = true := by
  unfold readPlain
  split
  · rfl
  · split
    · rfl
    · rfl
    · rfl

/-- Where no tag opens, one text item follows the other up to the end. -/
theorem Untagged.exists_lexes {cs : List Char} (h : Untagged cs) :
    ∃ is, Lexes cs is ∧ ∀ i ∈ is, i.isText = true := by
  induction hlen : cs.length using Nat.strong_induction_on generalizing cs with
  | _ len ih =>
      subst hlen
      cases cs with
      | nil => exact ⟨[], .nil, by simp⟩
      | cons c cs =>
          -- what is left behind an item is shorter, and no tag opens in it either
          have hbegins := Item.begins_readPlain h.not_opensTag
          have hrest : (Item.readPlain c cs).2 <:+ c :: cs := ⟨_, hbegins.source⟩
          have hread : Item.read 0 c cs = .ok (Item.readPlain c cs) := Item.read_eq_ok_iff.2 hbegins
          obtain ⟨is, hlexes, htext⟩ := ih _ (Item.length_lt_of_read hread) (h.of_suffix hrest) rfl
          exact ⟨_ :: is, .cons hbegins hlexes,
            List.forall_mem_cons.2 ⟨Item.isText_readPlain c cs, htext⟩⟩

/-- A source without tags is its own rendering. -/
theorem renderSource_of_isText {source : String} {is : List Item} (h : Lexes source.toList is)
    (htext : ∀ i ∈ is, i.isText = true) (ps : Parameters) :
    renderSource source ps = .ok source := by
  have hparse : Template.parse source = .ok ⟨Template.gather is⟩ :=
    Template.parse_eq_ok_iff.2 ⟨is, h, rfl⟩
  have hrenders := Template.renders_of_isText ps htext
  rw [h.source] at hrenders
  rw [renderSource, hparse]
  exact (Template.render_eq_ok_iff rfl).2 hrenders

/-! ## What a literal or comment can hold -/

/-- A text for a literal with the quote `q`: characters other than the quote and the backslash, and
backslashes with the character that each of them hides, whichever it is. -/
inductive Quotable (q : Char) : List Char → Prop where
  | nil : Quotable q []
  | plain {c : Char} {u : List Char} (hquote : c ≠ q) (hc : c ≠ '\\') (h : Quotable q u) :
      Quotable q (c :: u)
  | hidden (c : Char) {u : List Char} (h : Quotable q u) : Quotable q ('\\' :: c :: u)

section Literal

variable {q : Char}

theorem firstEnd_backslash_iff (hq : q ≠ '\\') (c : Char) (text : List Char) :
    FirstEnd (EndsLiteral q) ('\\' :: c :: text) ↔ FirstEnd (EndsLiteral q) text := by
  have hmid : ¬ EndsLiteral q ['\\'] := fun h => hq (endsLiteral_singleton.1 h).symm
  have hbehind : FirstEnd (fun t => EndsLiteral q ('\\' :: t)) (c :: text) ↔
      FirstEnd (EndsLiteral q) text :=
    firstEnd_cons_iff hmid fun t _ => endsLiteral_backslash q c t
  exact (firstEnd_cons_iff (not_endsLiteral_nil q) fun _ _ => Iff.rfl).trans hbehind

/-- A literal closes behind its text exactly if the text is one for its quote. -/
theorem firstEnd_literal_iff (hq : q ≠ '\\') {x : List Char} :
    FirstEnd (EndsLiteral q) (x ++ [q]) ↔ Quotable q x := by
  have hnil := not_endsLiteral_nil q
  constructor
  · intro hfirst
    obtain ⟨u, hu, hspelled⟩ := hfirst.1
    obtain rfl : x = u := List.append_cancel_right hu
    clear hu
    induction hspelled with
    | nil => exact .nil
    | @plain c u hc _ ih =>
        have hquote : c ≠ q := by
          -- a quote of its own would be the first end
          rintro rfl
          have heq := hfirst.2 [c] (List.prefix_append [c] (u ++ [c])) (endsLiteral_singleton.2 rfl)
          simp at heq
        have hbehind := firstEnd_cons_iff hnil fun t (_ : t <+: u ++ [q]) =>
          endsLiteral_cons hc hquote t
        exact .plain hquote hc (ih (hbehind.1 hfirst))
    | hidden c _ ih => exact .hidden c (ih ((firstEnd_backslash_iff hq c _).1 hfirst))
  · intro h
    induction h with
    | nil => exact firstEnd_singleton hnil (endsLiteral_singleton.2 rfl)
    | plain hquote hc _ ih =>
        exact (firstEnd_cons_iff hnil fun t _ => endsLiteral_cons hc hquote t).2 ih
    | hidden c _ ih => exact (firstEnd_backslash_iff hq c _).2 ih

end Literal

/-- A line comment closes behind its text exactly if there is no newline in it. -/
theorem firstEnd_line_iff {x : List Char} : FirstEnd EndsLine (x ++ ['\n']) ↔ '\n' ∉ x := by
  induction x with
  | nil =>
      simp only [List.nil_append, List.not_mem_nil, not_false_eq_true, iff_true]
      exact firstEnd_singleton not_endsLine_nil ⟨[], rfl⟩
  | cons c x ih =>
      by_cases hc : c = '\n'
      · subst hc
        refine iff_of_false (fun hfirst => ?_) (by simp)
        have heq := hfirst.2 ['\n'] (List.prefix_append ['\n'] (x ++ ['\n'])) ⟨[], rfl⟩
        simp at heq
      · have hbehind := firstEnd_cons_iff not_endsLine_nil fun t (_ : t <+: x ++ ['\n']) =>
          endsLine_cons hc t
        rw [List.cons_append, hbehind, ih, List.mem_cons, not_or, and_iff_right (Ne.symm hc)]

namespace Enclosure

/-- What a literal or comment ends with. -/
def close : Enclosure → List Char
  | character => ['\'']
  | string => ['"']
  | line => ['\n']
  | block => commentClose

/-- The literal or comment with the text `x`. -/
def around (k : Enclosure) (x : List Char) : List Char :=
  k.opener ++ x ++ k.close

/-- The texts that a literal or comment can hold.  A comment that begins like a tag is none, and the
star of its opener does not count for a `*/`. -/
def Holds : Enclosure → List Char → Prop
  | character, x => Quotable '\'' x
  | string, x => Quotable '"' x
  | line, x => '\n' ∉ x
  | block, x => ¬ OpensTag (block.opener ++ x) ∧ PassedOver x ∧ x.getLast? ≠ some '>'

theorem around_eq (k : Enclosure) (x : List Char) : k.around x = k.opener ++ (x ++ k.close) :=
  List.append_assoc _ _ _

/-- Only a block comment can begin like a tag. -/
theorem opensTag_around_iff (k : Enclosure) (x : List Char) :
    OpensTag (k.around x) ↔ k = block ∧ OpensTag (block.opener ++ x) := by
  constructor
  · intro h
    have hblock := h.opens_block
    cases k with
    | character => simp [around, opener] at hblock
    | string => simp [around, opener] at hblock
    | line => simp [around, opener] at hblock
    | block =>
        refine ⟨rfl, ?_⟩
        by_contra hnot
        have hcomment := not_opensTag_comment hnot []
        rw [List.append_nil] at hcomment
        exact hcomment h
  · rintro ⟨rfl, h⟩
    exact Item.opensTag_append h _

/-- A literal or comment holds the texts behind which it closes. -/
theorem holds_iff (k : Enclosure) (x : List Char) :
    k.Holds x ↔ ¬ OpensTag (k.around x) ∧ FirstEnd k.Ends (x ++ k.close) := by
  rw [opensTag_around_iff]
  cases k with
  | character => simp [Holds, Ends, close, firstEnd_literal_iff]
  | string => simp [Holds, Ends, close, firstEnd_literal_iff]
  | line => simp [Holds, Ends, close, firstEnd_line_iff]
  | block => simp [Holds, Ends, close, firstEnd_comment_iff]

/-- A literal or comment is read up to its end. -/
theorem read_of_holds {k : Enclosure} {x : List Char} (h : k.Holds x) :
    k.read (x ++ k.close) = ⟨x ++ k.close, true, []⟩ :=
  (k.cut_read _).unique (.closed (List.append_nil _) ((k.holds_iff x).1 h).2)

end Enclosure

/-! ## A literal or comment as the only item -/

namespace Item

theorem Begins.unique {i j : Item} {cs rest rest' : List Char} (h : i.Begins cs rest)
    (h' : j.Begins cs rest') : i = j ∧ rest = rest' := by
  obtain ⟨c, cs, rfl⟩ := List.exists_cons_of_ne_nil h.ne_nil
  have hread : read 0 c cs = .ok (i, rest) := read_eq_ok_iff.2 h
  rw [read_eq_ok_iff.2 h'] at hread
  cases hread
  exact ⟨rfl, rfl⟩

theorem Begins.not_opensTag {i : Item} {cs rest : List Char} (h : i.Begins cs rest)
    (htext : i.isText = true) : ¬ OpensTag cs := by
  cases h with
  | tag => cases htext
  | enclosed _ hopen => exact hopen
  | char hopen => exact hopen

/-- A literal or comment is one item that has its end exactly if it can hold its text. -/
theorem begins_around_iff {k : Enclosure} {x : List Char} :
    (enclosed (k.around x) true).Begins (k.around x) [] ↔ k.Holds x := by
  rw [k.holds_iff]
  constructor
  · intro h
    have hopen := h.not_opensTag rfl
    have hcut := k.cut_read (x ++ k.close)
    obtain ⟨hitem, -⟩ := h.unique (.enclosed k hopen (k.around_eq x) hcut)
    generalize k.read (x ++ k.close) = e at hcut hitem
    cases hcut with
    | closed _ hfirst =>
        rw [k.around_eq] at hitem
        simp only [enclosed.injEq, List.append_cancel_left_eq, and_true] at hitem
        exact ⟨hopen, hitem ▸ hfirst⟩
    | unclosed =>
        have hclosed := congrArg Item.closed hitem
        cases hclosed
  · rintro ⟨hopen, hfirst⟩
    have hbegins := Begins.enclosed k hopen (k.around_eq x) (.closed (List.append_nil _) hfirst)
    rwa [← k.around_eq] at hbegins

end Item

theorem lexes_singleton_iff {i : Item} {cs : List Char} : Lexes cs [i] ↔ i.Begins cs [] := by
  constructor
  · intro h
    cases h with
    | cons hi h =>
        cases h with
        | nil => exact hi
  · intro h
    exact .cons h .nil

/-! ## The walker on a literal or comment -/

namespace Walker

variable {k : Enclosure} {rest : List Char}

theorem round_opener (hopen : ¬ OpensTag (k.opener ++ rest)) :
    start.round (k.opener ++ rest) =
      .ok { start with pos := byteLength k.opener, mode := .enclosed k } := by
  have hne : encode (k.opener ++ rest) ≠ [] := by
    cases k <;> simp [Enclosure.opener, Text.encode_cons]
  obtain ⟨b, bs, hbytes⟩ := List.exists_cons_of_ne_nil hne
  have hcode := roundCode_of_not_opensTag (a := []) (w := start) rfl hopen hbytes
  rw [(Enclosure.opening?_eq_some_iff hbytes).2 (List.prefix_append _ _)] at hcode
  have hpos : start.pos + (encode k.opener).length = byteLength k.opener := by
    rw [Text.length_encode]
    exact Nat.zero_add _
  simp only [advance, hpos] at hcode
  exact hcode

theorem round_text {x : List Char} (h : k.Holds x) :
    round (k.around x) { start with pos := byteLength k.opener, mode := .enclosed k } =
      .ok { start with pos := byteLength (k.around x) } := by
  have hpass := Enclosure.pass_append (List.suffix_refl k.opener) (x ++ k.close)
  rw [Enclosure.read_of_holds h, ← k.around_eq] at hpass
  rw [round]
  dsimp only
  rw [roundEnclosed, hpass]
  rfl

/-- Two rounds lead over a literal or comment and back into code. -/
theorem reaches_around {x : List Char} (h : k.Holds x) :
    Reaches (k.around x) { start with pos := byteLength (k.around x) } := by
  have hopen := ((k.holds_iff x).1 h).1
  have hround : start.round (k.around x) =
      .ok { start with pos := byteLength k.opener, mode := .enclosed k } := by
    rw [k.around_eq] at hopen ⊢
    exact round_opener hopen
  have hlen : byteLength (k.around x) = byteLength k.opener + byteLength (x ++ k.close) := by
    rw [k.around_eq, Text.byteLength_append]
  have hclose : 0 < byteLength (x ++ k.close) :=
    Text.byteLength_pos (by cases k <;> simp [Enclosure.close, commentClose])
  refine .tail (.single ⟨?_, hround⟩) ⟨?_, round_text h⟩
  · change 0 < byteLength (k.around x)
    omega
  · change byteLength k.opener < byteLength (k.around x)
    omega

end Walker

/-! ## Rendering what is left alone -/

namespace Template

/-- **What is not a tag is left alone.**  A source in which no tag opens renders to itself under all
parameters.  A literal or comment by itself is one item that has its end exactly if it can hold its
text, whatever tags there are in the text.  It is then parsed into a text without tags, renders to
itself under all parameters, and the walker that has gone over it is in code, as at the start. -/
theorem untagged_and_enclosed_kept :
    (∀ source : String, Untagged source.toList → ∀ ps, renderSource source ps = .ok source) ∧
      ∀ (k : Enclosure) (x : String),
        let source := String.ofList (k.around x.toList)
        (Item.scan 0 source.toList = .ok [.enclosed source.toList true] ↔ k.Holds x.toList) ∧
        (k.Holds x.toList →
          parse source = .ok ⟨[.text source.toList]⟩ ∧
          (∀ ps, renderSource source ps = .ok source) ∧
          Walker.Reaches source.toList { Walker.start with pos := byteLength source.toList }) := by
  refine ⟨fun source h ps => ?_, fun k x => ?_⟩
  · obtain ⟨is, hlexes, htext⟩ := h.exists_lexes
    exact renderSource_of_isText hlexes htext ps
  · intro source
    have hsource : source.toList = k.around x.toList := String.toList_ofList
    have hiff : Lexes source.toList [.enclosed source.toList true] ↔ k.Holds x.toList := by
      rw [lexes_singleton_iff, hsource]
      exact Item.begins_around_iff
    refine ⟨Item.scan_eq_ok_iff.trans hiff, fun h => ⟨?_, fun ps => ?_, ?_⟩⟩
    · exact parse_eq_ok_iff.2 ⟨_, hiff.2 h, rfl⟩
    · exact renderSource_of_isText (hiff.2 h) (List.forall_mem_singleton.2 rfl) ps
    · rw [hsource]
      exact Walker.reaches_around h

/-- A tag in a comment that begins with a slash and ends in a star, and an open literal with a part
of a tag in it. -/
theorem untagged_and_enclosed_kept_tag_shaped :
    (Untagged "it's /*<DOPING".toList ∧
        renderSource "it's /*<DOPING" ⟨[("N", "1")]⟩ = .ok "it's /*<DOPING") ∧
      Enclosure.block.Holds "/ /*<DOPING N >*/ é*".toList ∧
      renderSource "/*/ /*<DOPING N >*/ é**/" ⟨[("N", "1")]⟩ = .ok "/*/ /*<DOPING N >*/ é**/" := by
  obtain ⟨huntagged, henclosed⟩ := untagged_and_enclosed_kept
  have hopen : Untagged "it's /*<DOPING".toList := ⟨by decide +kernel, by decide +kernel⟩
  have hsource : String.ofList (Enclosure.block.around "/ /*<DOPING N >*/ é*".toList) =
      "/*/ /*<DOPING N >*/ é**/" := by
    decide +kernel
  have hcomment := henclosed .block "/ /*<DOPING N >*/ é*"
  dsimp only at hcomment
  rw [hsource] at hcomment
  obtain ⟨hscan, hkept⟩ := hcomment
  have hholds : Enclosure.block.Holds "/ /*<DOPING N >*/ é*".toList := hscan.1 (by decide +kernel)
  exact ⟨⟨hopen, huntagged _ hopen _⟩, hholds, (hkept hholds).2.1 _⟩

end Template
end Loopsmith
