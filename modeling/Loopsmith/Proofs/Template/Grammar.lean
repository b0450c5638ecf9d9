import Loopsmith.Proofs.Text.Fields
import Loopsmith.Template.Item
import Mathlib.Data.List.Basic

/-!
# The lexical grammar of templates

What may stand at the head of a text, said without reading it: a tag, a literal or comment,
or a single character.  `Tag.Begins` and `Item.Begins` relate a text to the item at its head
and to the text behind that item, and `Item.read_eq_ok_iff` says that the reader of items
decides this relation.

## First ends

Conditional tags, literals and comments have one thing in common: they stop at the first place
where something is complete.  A language `Ends` of complete texts describes the place, and
`FirstEnd Ends text` says that `text` is complete and none of its proper beginnings is.  A text
is `Cut` at its first end, or taken whole when it has none.  A cut is unique (`Cut.unique`), so
for each reader it is enough to see that it makes one.  These readers go character by
character, and behind a character `c` the language that is left is `fun t => Ends (c :: t)`;
`Cut.step` is the one step they all take.
-/

namespace Loopsmith

/-! ## First ends -/

/-- A text that is complete, and no earlier. -/
def FirstEnd (Ends : List Char → Prop) (text : List Char) : Prop :=
  Ends text ∧ ∀ t, t <+: text → Ends t → t = text

/-- A text that is nowhere complete. -/
def Unended (Ends : List Char → Prop) (text : List Char) : Prop :=
  ∀ t, t <+: text → ¬ Ends t

/-- What comes of cutting a text at its first end. -/
inductive Cut (Ends : List Char → Prop) (cs : List Char) : Enclosed → Prop where
  | closed {text rest : List Char} (hcs : text ++ rest = cs) (h : FirstEnd Ends text) :
      Cut Ends cs ⟨text, true, rest⟩
  | unclosed (h : Unended Ends cs) : Cut Ends cs ⟨cs, false, []⟩

section Cut

variable {Ends Ends' : List Char → Prop} {cs : List Char} {c : Char} {e e' : Enclosed}

theorem FirstEnd.eq_of_append_eq {a b a' b' : List Char} (h : FirstEnd Ends a)
    (h' : FirstEnd Ends a') (heq : a ++ b = a' ++ b') : a = a' := by
  have ha : a <+: a' ++ b' := ⟨b, heq⟩
  rcases List.prefix_or_prefix_of_prefix ha (List.prefix_append a' b') with hp | hp
  · exact h'.2 a hp h.1
  · exact (h.2 a' hp h'.1).symm

theorem Cut.unique (h : Cut Ends cs e) (h' : Cut Ends cs e') : e = e' := by
  cases h with
  | @closed text rest hcs hf =>
      cases h' with
      | @closed text' rest' hcs' hf' =>
          have heq := hcs.trans hcs'.symm
          cases hf.eq_of_append_eq hf' heq
          rw [List.append_cancel_left heq]
      | unclosed hu => exact absurd hf.1 (hu text ⟨rest, hcs⟩)
  | unclosed hu =>
      cases h' with
      | @closed text' rest' hcs' hf' => exact absurd hf'.1 (hu text' ⟨rest', hcs'⟩)
      | unclosed => rfl

/-- Where nothing is complete before `c`, and behind `c` what `Ends'` says, the first end from `c`
on is the first end behind `c`. -/
theorem firstEnd_cons_iff {text : List Char} (hnil : ¬ Ends [])
    (hiff : ∀ t, t <+: text → (Ends (c :: t) ↔ Ends' t)) :
    FirstEnd Ends (c :: text) ↔ FirstEnd Ends' text := by
  constructor
  · rintro ⟨hends, hfirst⟩
    refine ⟨(hiff text List.prefix_rfl).1 hends, fun t ht hends' => ?_⟩
    have heq := hfirst (c :: t) (List.cons_prefix_cons.2 ⟨rfl, ht⟩) ((hiff t ht).2 hends')
    exact (List.cons.inj heq).2
  · rintro ⟨hends, hfirst⟩
    refine ⟨(hiff text List.prefix_rfl).2 hends, fun t ht hends' => ?_⟩
    rcases List.prefix_cons_iff.1 ht with rfl | ⟨u, rfl, hu⟩
    · exact absurd hends' hnil
    · rw [hfirst u hu ((hiff u hu).1 hends')]

theorem firstEnd_singleton (hnil : ¬ Ends []) (h : Ends [c]) : FirstEnd Ends [c] := by
  refine ⟨h, fun t ht hends => ?_⟩
  rcases List.prefix_cons_iff.1 ht with rfl | ⟨u, rfl, hu⟩
  · exact absurd hends hnil
  · rw [List.prefix_nil.1 hu]

/-- One step of a reader: where the text is not complete before `c`, and behind `c` it is
complete just where `Ends'` says, a cut at `Ends'` behind `c` is one at `Ends` from `c` on. -/
theorem Cut.step (hnil : ¬ Ends []) (hiff : ∀ t, t <+: cs → (Ends (c :: t) ↔ Ends' t))
    (h : Cut Ends' cs e) : Cut Ends (c :: cs) (e.cons c) := by
  cases h with
  | @closed text rest hcs hf =>
      have hpre : text <+: cs := ⟨rest, hcs⟩
      exact Cut.closed (by rw [List.cons_append, hcs])
        ((firstEnd_cons_iff hnil fun t ht => hiff t (ht.trans hpre)).2 hf)
  | unclosed hun =>
      refine Cut.unclosed fun t ht hends => ?_
      rcases List.prefix_cons_iff.1 ht with rfl | ⟨u, rfl, hu⟩
      · exact hnil hends
      · exact hun u hu ((hiff u hu).1 hends)

theorem Cut.nil (hnil : ¬ Ends []) : Cut Ends [] ⟨[], false, []⟩ := by
  refine Cut.unclosed fun t ht => ?_
  rwa [List.prefix_nil.1 ht]

/-- A cut at a text of one character. -/
theorem Cut.singleton (hnil : ¬ Ends []) (h : Ends [c]) : Cut Ends (c :: cs) ⟨[c], true, cs⟩ :=
  Cut.closed rfl (firstEnd_singleton hnil h)

end Cut

/-! ## Literals and comments -/

/-- A text in which every backslash comes with the character that it hides. -/
inductive Spelled : List Char → Prop where
  | nil : Spelled []
  | plain {c : Char} {u : List Char} (hc : c ≠ '\\') (h : Spelled u) : Spelled (c :: u)
  | hidden (c : Char) {u : List Char} (h : Spelled u) : Spelled ('\\' :: c :: u)

/-- A literal is complete behind a quote that no backslash hides. -/
def EndsLiteral (q : Char) (text : List Char) : Prop :=
  ∃ u, text = u ++ [q] ∧ Spelled u

/-- A line comment is complete behind a newline. -/
def EndsLine (text : List Char) : Prop :=
  ∃ u, text = u ++ ['\n']

/-- A block comment is complete behind a `*/` that does not directly follow a `>`; `before` is
the character in front of the text. -/
def EndsBlock (before : Char) (text : List Char) : Prop :=
  ∃ u, text = u ++ ['*', '/'] ∧ (before :: u).getLast? ≠ some '>'

theorem not_endsLiteral_nil (q : Char) : ¬ EndsLiteral q [] := by
  rintro ⟨u, hu, -⟩
  simp at hu

theorem endsLiteral_cons {q c : Char} (hc : c ≠ '\\') (hq : c ≠ q) (t : List Char) :
    EndsLiteral q (c :: t) ↔ EndsLiteral q t := by
  constructor
  · rintro ⟨u, hu, hspelled⟩
    cases hspelled with
    | nil => exact absurd (List.cons.inj hu).1 hq
    | plain _ h => exact ⟨_, (List.cons.inj hu).2, h⟩
    | hidden => exact absurd (List.cons.inj hu).1 hc
  · rintro ⟨u, rfl, hspelled⟩
    exact ⟨c :: u, rfl, .plain hc hspelled⟩

theorem endsLiteral_backslash (q c : Char) (t : List Char) :
    EndsLiteral q ('\\' :: c :: t) ↔ EndsLiteral q t := by
  constructor
  · rintro ⟨u, hu, hspelled⟩
    cases hspelled with
    | nil => simp at hu
    | plain hc _ => exact absurd (List.cons.inj hu).1.symm hc
    | hidden d h => exact ⟨_, (List.cons.inj (List.cons.inj hu).2).2, h⟩
  · rintro ⟨u, rfl, hspelled⟩
    exact ⟨'\\' :: c :: u, rfl, .hidden c hspelled⟩

theorem endsLiteral_singleton {q c : Char} : EndsLiteral q [c] ↔ c = q := by
  constructor
  · rintro ⟨u, hu, -⟩
    cases u with
    | nil => exact (List.cons.inj hu).1
    | cons d u => simp at hu
  · rintro rfl
    exact ⟨[], rfl, .nil⟩

theorem cut_literal {q : Char} (hq : q ≠ '\\') (cs : List Char) :
    Cut (EndsLiteral q) cs (Enclosed.literal q cs) := by
  have hnil := not_endsLiteral_nil q
  fun_induction Enclosed.literal q cs with
  | case1 => exact Cut.nil hnil
  | case2 c hc => exact Cut.singleton hnil (endsLiteral_singleton.2 (eq_of_beq hc))
  | case3 c hc =>
      refine (Cut.nil hnil).step hnil fun t ht => ?_
      have hne : c ≠ q := by simpa using hc
      rw [List.prefix_nil.1 ht, endsLiteral_singleton]
      exact iff_of_false hne hnil
  | case4 c d cs hc ih =>
      -- the backslash and the character it hides are two steps, with nothing complete between
      cases eq_of_beq hc
      have hmid : ¬ EndsLiteral q ['\\'] := fun h => hq (endsLiteral_singleton.1 h).symm
      have hd : Cut (fun t => EndsLiteral q ('\\' :: t)) (d :: cs)
          ((Enclosed.literal q cs).cons d) :=
        ih.step hmid fun t _ => endsLiteral_backslash q d t
      exact hd.step hnil fun t _ => Iff.rfl
  | case5 c d cs _ hc => exact Cut.singleton hnil (endsLiteral_singleton.2 (eq_of_beq hc))
  | case6 c d cs hb hc ih =>
      exact ih.step hnil fun t _ => endsLiteral_cons (by simpa using hb) (by simpa using hc) t

theorem not_endsLine_nil : ¬ EndsLine [] := by
  rintro ⟨u, hu⟩
  simp at hu

theorem endsLine_cons {c : Char} (hc : c ≠ '\n') (t : List Char) :
    EndsLine (c :: t) ↔ EndsLine t := by
  constructor
  · rintro ⟨u, hu⟩
    cases u with
    | nil => exact absurd (List.cons.inj hu).1 hc
    | cons d u => exact ⟨u, (List.cons.inj hu).2⟩
  · rintro ⟨u, rfl⟩
    exact ⟨c :: u, rfl⟩

theorem cut_line (cs : List Char) : Cut EndsLine cs (Enclosed.line cs) := by
  fun_induction Enclosed.line cs with
  | case1 => exact Cut.nil not_endsLine_nil
  | case2 c cs hc =>
      cases eq_of_beq hc
      exact Cut.singleton not_endsLine_nil ⟨[], rfl⟩
  | case3 c cs hc ih =>
      exact ih.step not_endsLine_nil fun t _ => endsLine_cons (by simpa using hc) t

theorem not_endsBlock_of_length {before : Char} {t : List Char} (h : t.length < 2) :
    ¬ EndsBlock before t := by
  rintro ⟨u, rfl, -⟩
  rw [List.length_append] at h
  exact absurd h (by simp)

/-- Only the text `*/` itself is complete before the character in front of its `*` is a
character of the text. -/
theorem endsBlock_cons {before c : Char} {t : List Char}
    (h : ¬ (c = '*' ∧ t = ['/'] ∧ before ≠ '>')) :
    EndsBlock before (c :: t) ↔ EndsBlock c t := by
  constructor
  · rintro ⟨u, hu, hlast⟩
    cases u with
    | nil =>
        obtain ⟨hc, ht⟩ := List.cons.inj hu
        have hne : before ≠ '>' := by simpa using hlast
        exact absurd ⟨hc, ht, hne⟩ h
    | cons d u =>
        obtain ⟨rfl, ht⟩ := List.cons.inj hu
        exact ⟨u, ht, by simpa using hlast⟩
  · rintro ⟨u, rfl, hlast⟩
    exact ⟨c :: u, rfl, by simpa using hlast⟩

theorem cut_block (before : Char) (cs : List Char) :
    Cut (EndsBlock before) cs (Enclosed.block before cs) := by
  fun_induction Enclosed.block before cs with
  | case1 before => exact Cut.nil (not_endsBlock_of_length (by simp))
  | case2 before c =>
      have hnil : ¬ EndsBlock c [] := not_endsBlock_of_length (by simp)
      refine (Cut.nil hnil).step (not_endsBlock_of_length (by simp)) fun t ht => ?_
      rw [List.prefix_nil.1 ht]
      exact endsBlock_cons (by simp)
  | case3 before c d cs h =>
      simp only [Bool.and_eq_true, beq_iff_eq, bne_iff_ne] at h
      obtain ⟨⟨rfl, rfl⟩, hbefore⟩ := h
      have hends : EndsBlock before ['*', '/'] := ⟨[], rfl, by simpa using hbefore⟩
      have hslash : Cut (fun t => EndsBlock before ('*' :: t)) ('/' :: cs) ⟨['/'], true, cs⟩ :=
        Cut.singleton (not_endsBlock_of_length (by simp)) hends
      exact hslash.step (not_endsBlock_of_length (by simp)) fun t _ => Iff.rfl
  | case4 before c d cs h ih =>
      refine ih.step (not_endsBlock_of_length (by simp)) fun t ht => endsBlock_cons ?_
      rintro ⟨rfl, rfl, hbefore⟩
      obtain ⟨rfl, -⟩ := List.cons_prefix_cons.1 ht
      simp [hbefore] at h

/-- The literals and comments of a template. -/
inductive Enclosure where
  | character
  | string
  | line
  | block

namespace Enclosure

def opener : Enclosure → List Char
  | character => ['\'']
  | string => ['"']
  | line => ['/', '/']
  | block => ['/', '*']

/-- When the text behind the opener is complete. -/
def Ends : Enclosure → List Char → Prop
  | character => EndsLiteral '\''
  | string => EndsLiteral '"'
  | line => EndsLine
  | block => EndsBlock '*'

end Enclosure

/-! ## Tags -/

/-- A text with a tag opener at its head. -/
def OpensTag (cs : List Char) : Prop :=
  substitutionOpener <+: cs ∨ conditionalOpener <+: cs

instance (cs : List Char) : Decidable (OpensTag cs) :=
  inferInstanceAs (Decidable (_ ∨ _))

/-- The body of a conditional tag is complete behind a `>*/`. -/
def EndsTag (text : List Char) : Prop :=
  tagClose <:+ text

/-- The tag at the head of a text, and the text behind it. -/
inductive Tag.Begins (cs : List Char) : Tag → List Char → Prop where
  | substitution {lead trail : Nat} {name : String} {rest : List Char} (hname : IsName name)
      (hcs : cs = substitutionOpener ++ List.replicate lead ' ' ++ name.toList ++
        ' ' :: List.replicate trail ' ' ++ tagClose ++ rest) :
      Tag.Begins cs (.substitution lead name trail) rest
  | conditional {lead : Nat} {name : String} {body rest : List Char} (hname : IsName name)
      (hbody : FirstEnd EndsTag (body ++ tagClose))
      (hcs : cs = conditionalOpener ++ List.replicate lead ' ' ++ name.toList ++
        ' ' :: (body ++ tagClose) ++ rest) :
      Tag.Begins cs (.conditional lead name body) rest

namespace Tag

theorem isPrefixOf?_eq_none_iff {p cs : List Char} : p.isPrefixOf? cs = none ↔ ¬ p <+: cs := by
  simp [Option.eq_none_iff_forall_ne_some, List.IsPrefix]

theorem not_endsTag_nil : ¬ EndsTag [] := by
  simp [EndsTag, tagClose]

theorem endsTag_cons {c : Char} {t cs : List Char} (h : ¬ tagClose <+: c :: cs) (ht : t <+: cs) :
    EndsTag (c :: t) ↔ EndsTag t := by
  refine List.suffix_cons_iff.trans (or_iff_right fun heq => h ?_)
  rw [heq]
  exact List.cons_prefix_cons.2 ⟨rfl, ht⟩

theorem firstEnd_tagClose : FirstEnd EndsTag tagClose :=
  ⟨List.suffix_rfl, fun _ ht hends => ht.eq_of_length_le hends.length_le⟩

theorem cut_of_splitAtClose {cs body rest : List Char}
    (h : splitAtClose cs = some (body, rest)) : Cut EndsTag cs ⟨body ++ tagClose, true, rest⟩ := by
  induction cs generalizing body rest with
  | nil => cases h
  | cons c cs ih =>
      rw [splitAtClose] at h
      split at h
      · next r hr =>
          cases h
          exact Cut.closed (eq_append_of_isPrefixOf? hr).symm firstEnd_tagClose
      · next hr =>
          obtain ⟨⟨b, r⟩, hb, heq⟩ := Option.map_eq_some_iff.1 h
          cases heq
          exact (ih hb).step not_endsTag_nil fun t ht =>
            endsTag_cons (isPrefixOf?_eq_none_iff.1 hr) ht

theorem cut_of_splitAtClose_eq_none {cs : List Char} (h : splitAtClose cs = none) :
    Cut EndsTag cs ⟨cs, false, []⟩ := by
  induction cs with
  | nil => exact Cut.nil not_endsTag_nil
  | cons c cs ih =>
      rw [splitAtClose] at h
      split at h
      · cases h
      · next hr =>
          exact (ih (Option.map_eq_none_iff.1 h)).step not_endsTag_nil fun t ht =>
            endsTag_cons (isPrefixOf?_eq_none_iff.1 hr) ht

theorem splitAtClose_of_firstEnd {body : List Char} (h : FirstEnd EndsTag (body ++ tagClose))
    (rest : List Char) : splitAtClose (body ++ tagClose ++ rest) = some (body, rest) := by
  have hcut : Cut EndsTag (body ++ tagClose ++ rest) ⟨body ++ tagClose, true, rest⟩ :=
    Cut.closed rfl h
  cases hs : splitAtClose (body ++ tagClose ++ rest) with
  | none =>
      have heq := congrArg Enclosed.closed (hcut.unique (cut_of_splitAtClose_eq_none hs))
      cases heq
  | some p =>
      obtain ⟨b, r⟩ := p
      have heq := hcut.unique (cut_of_splitAtClose hs)
      simp only [Enclosed.mk.injEq, true_and, List.append_left_inj] at heq
      rw [heq.1, heq.2]

theorem readName_eq_ok_iff {p : Place} {cs rest : List Char} {name : String} :
    readName p cs = .ok (name, rest) ↔ IsName name ∧ cs = name.toList ++ ' ' :: rest := by
  constructor
  · intro h
    refine ⟨?_, readName_source h⟩
    unfold readName at h
    dsimp only at h
    split at h
    · cases h
    · split at h
      · cases h
      · next hne =>
          split at h
          · cases h
            rw [IsName, String.toList_ofList]
            exact ⟨by simpa using hne, fun c hc => List.mem_takeWhile_imp hc⟩
          · cases h
  · rintro ⟨hname, rfl⟩
    have hspace : isNameChar ' ' = false := by decide
    have htake : (name.toList ++ ' ' :: rest).takeWhile isNameChar = name.toList := by
      rw [List.takeWhile_append_of_pos hname.2, List.takeWhile_cons, hspace]
      exact List.append_nil _
    have hdrop : (name.toList ++ ' ' :: rest).dropWhile isNameChar = ' ' :: rest := by
      rw [List.dropWhile_append_of_pos hname.2, List.dropWhile_cons, hspace]
      rfl
    simp [readName, htake, hdrop, hname.1]

/-- Spaces in front of a text that does not begin with one are taken off as a whole. -/
theorem span_spaces (n : Nat) {cs : List Char} (h : ∀ c ∈ cs.head?, c ≠ ' ') :
    (List.replicate n ' ' ++ cs).takeWhile isSpace = List.replicate n ' ' ∧
      (List.replicate n ' ' ++ cs).dropWhile isSpace = cs := by
  have hspaces : ∀ c ∈ List.replicate n ' ', isSpace c = true := by
    intro c hc
    rw [List.eq_of_mem_replicate hc]
    rfl
  rw [List.takeWhile_append_of_pos hspaces, List.dropWhile_append_of_pos hspaces]
  cases cs with
  | nil => exact ⟨List.append_nil _, rfl⟩
  | cons c cs =>
      have hc : isSpace c = false := by simpa [isSpace] using h c rfl
      rw [List.takeWhile_cons, List.dropWhile_cons, hc]
      exact ⟨List.append_nil _, rfl⟩

theorem head_ne_space {name : String} (h : IsName name) (cs : List Char) :
    ∀ c ∈ (name.toList ++ cs).head?, c ≠ ' ' := by
  rintro c hc rfl
  obtain ⟨d, u, hu⟩ := List.exists_cons_of_ne_nil h.1
  rw [hu] at hc
  cases hc
  have hspace := h.2 ' ' (by rw [hu]; exact List.mem_cons_self)
  cases hspace

theorem exists_of_bind_eq_ok {α β : Type} {x : Except TagError α} {f : α → Except TagError β}
    {b : β} (h : (x >>= f) = .ok b) : ∃ a, x = .ok a ∧ f a = .ok b := by
  cases x with
  | error e => cases h
  | ok a => exact ⟨a, rfl, h⟩

theorem readSubstitution_eq_ok_iff {p : Place} {cs rest : List Char} {t : Tag} :
    readSubstitution p cs = .ok (t, rest) ↔
      ∃ lead name trail, t = .substitution lead name trail ∧ IsName name ∧
        cs = List.replicate lead ' ' ++ (name.toList ++
          ' ' :: (List.replicate trail ' ' ++ (tagClose ++ rest))) := by
  constructor
  · intro h
    have hsource := readSubstitution_source h
    unfold readSubstitution at h
    obtain ⟨⟨name, after⟩, hname, h⟩ := exists_of_bind_eq_ok h
    dsimp only at h
    split at h
    · cases h
      refine ⟨_, name, _, rfl, (readName_eq_ok_iff.1 hname).1, ?_⟩
      simpa [source, List.append_assoc] using hsource
    · split at h
      · cases h
      · split at h <;> cases h
  · rintro ⟨lead, name, trail, rfl, hname, rfl⟩
    have hlead := span_spaces lead (head_ne_space hname
      (' ' :: (List.replicate trail ' ' ++ (tagClose ++ rest))))
    have hhead : ∀ c ∈ (tagClose ++ rest).head?, c ≠ ' ' := by simp [tagClose]
    have htrail := span_spaces trail hhead
    have hclose : tagClose.isPrefixOf? (tagClose ++ rest) = some rest :=
      List.isPrefixOf?_eq_some_iff_append_eq.2 rfl
    unfold readSubstitution
    rw [hlead.1, hlead.2, readName_eq_ok_iff.2 ⟨hname, rfl⟩]
    dsimp only [bind, Except.bind]
    rw [htrail.1, htrail.2, hclose, List.length_replicate, List.length_replicate]

theorem readConditional_eq_ok_iff {p : Place} {cs rest : List Char} {t : Tag} :
    readConditional p cs = .ok (t, rest) ↔
      ∃ lead name body, t = .conditional lead name body ∧ IsName name ∧
        FirstEnd EndsTag (body ++ tagClose) ∧
        cs = List.replicate lead ' ' ++ (name.toList ++ ' ' :: (body ++ tagClose ++ rest)) := by
  constructor
  · intro h
    have hsource := readConditional_source h
    unfold readConditional at h
    obtain ⟨⟨name, after⟩, hname, h⟩ := exists_of_bind_eq_ok h
    dsimp only at h
    split at h
    · next body tail hsplit =>
        cases h
        have hcut := cut_of_splitAtClose hsplit
        cases hcut with
        | closed _ hfirst =>
            refine ⟨_, name, body, rfl, (readName_eq_ok_iff.1 hname).1, hfirst, ?_⟩
            simpa [source, List.append_assoc] using hsource
    · cases h
  · rintro ⟨lead, name, body, rfl, hname, hbody, rfl⟩
    have hlead := span_spaces lead (head_ne_space hname (' ' :: (body ++ tagClose ++ rest)))
    unfold readConditional
    rw [hlead.1, hlead.2, readName_eq_ok_iff.2 ⟨hname, rfl⟩]
    dsimp only [bind, Except.bind]
    rw [splitAtClose_of_firstEnd hbody, List.length_replicate]

theorem read?_eq_none_iff {pos : Nat} {cs : List Char} : read? pos cs = none ↔ ¬ OpensTag cs := by
  unfold read?
  split
  · next r hr =>
      have hopen : OpensTag cs := .inr ⟨r, (eq_append_of_isPrefixOf? hr).symm⟩
      simp [hopen]
  · next hc =>
      have hcond := isPrefixOf?_eq_none_iff.1 hc
      split
      · next r hr =>
          have hopen : OpensTag cs := .inl ⟨r, (eq_append_of_isPrefixOf? hr).symm⟩
          simp [hopen]
      · next hs =>
          have hsubst := isPrefixOf?_eq_none_iff.1 hs
          simp [OpensTag, hcond, hsubst]

/-- No text has both openers at its head. -/
theorem not_conditionalOpener_isPrefix (cs : List Char) :
    ¬ conditionalOpener <+: substitutionOpener ++ cs := by
  simp [conditionalOpener, substitutionOpener]

theorem read?_eq_ok_iff {pos : Nat} {cs rest : List Char} {t : Tag} :
    read? pos cs = some (.ok (t, rest)) ↔ Begins cs t rest := by
  constructor
  · intro h
    unfold read? at h
    split at h
    · next r hr =>
        obtain ⟨lead, name, body, rfl, hname, hbody, hcs⟩ :=
          readConditional_eq_ok_iff.1 (Option.some.inj h)
        refine .conditional hname hbody ?_
        rw [eq_append_of_isPrefixOf? hr, hcs]
        simp
    · split at h
      · next r hr =>
          obtain ⟨lead, name, trail, rfl, hname, hcs⟩ :=
            readSubstitution_eq_ok_iff.1 (Option.some.inj h)
          refine .substitution hname ?_
          rw [eq_append_of_isPrefixOf? hr, hcs]
          simp
      · cases h
  · intro h
    cases h with
    | @substitution lead trail name rest hname hcs =>
        simp only [List.append_assoc, List.cons_append] at hcs
        rw [hcs]
        unfold read?
        rw [isPrefixOf?_eq_none_iff.2 (not_conditionalOpener_isPrefix _)]
        dsimp only
        rw [List.isPrefixOf?_eq_some_iff_append_eq.2 rfl]
        exact congrArg some (readSubstitution_eq_ok_iff.2 ⟨lead, name, trail, rfl, hname, rfl⟩)
    | @conditional lead name body rest hname hbody hcs =>
        simp only [List.append_assoc, List.cons_append] at hcs
        rw [hcs]
        unfold read?
        rw [List.isPrefixOf?_eq_some_iff_append_eq.2 rfl]
        exact congrArg some (readConditional_eq_ok_iff.2
          ⟨lead, name, body, rfl, hname, hbody, by simp⟩)

end Tag

/-! ## Items -/

/-- The item at the head of a text, and the text behind it.  Where a tag opener stands, only a
tag can begin. -/
inductive Item.Begins (cs : List Char) : Item → List Char → Prop where
  | tag {t : Tag} {rest : List Char} (h : Tag.Begins cs t rest) : Item.Begins cs (.tag t) rest
  | enclosed (k : Enclosure) {text : List Char} {e : Enclosed} (hopen : ¬ OpensTag cs)
      (hcs : cs = k.opener ++ text) (hcut : Cut k.Ends text e) :
      Item.Begins cs (.enclosed (k.opener ++ e.text) e.closed) e.rest
  | char {c : Char} {rest : List Char} (hopen : ¬ OpensTag cs)
      (hnone : ∀ k : Enclosure, ¬ k.opener <+: cs) (hcs : cs = c :: rest) :
      Item.Begins cs (.char c) rest

namespace Item

theorem begins_readPlain {c : Char} {cs : List Char} (hopen : ¬ OpensTag (c :: cs)) :
    Begins (c :: cs) (readPlain c cs).1 (readPlain c cs).2 := by
  unfold readPlain
  split
  · next hquote =>
      rw [Bool.or_eq_true, beq_iff_eq, beq_iff_eq] at hquote
      rcases hquote with rfl | rfl
      · exact .enclosed .character hopen rfl (cut_literal (by decide) cs)
      · exact .enclosed .string hopen rfl (cut_literal (by decide) cs)
  · next hquote =>
      split
      · exact .enclosed .line hopen rfl (cut_line _)
      · exact .enclosed .block hopen rfl (cut_block '*' _)
      · next hline hblock =>
          refine .char hopen (fun k => ?_) rfl
          rintro ⟨u, hu⟩
          cases k with
          | character => simp [← (List.cons.inj hu).1] at hquote
          | string => simp [← (List.cons.inj hu).1] at hquote
          | line =>
              obtain ⟨hc, hcs⟩ := List.cons.inj hu
              exact hline u hc.symm hcs.symm
          | block =>
              obtain ⟨hc, hcs⟩ := List.cons.inj hu
              exact hblock u hc.symm hcs.symm

theorem readPlain_of_cut {k : Enclosure} {c : Char} {cs text : List Char} {e : Enclosed}
    (hcs : c :: cs = k.opener ++ text) (hcut : Cut k.Ends text e) :
    readPlain c cs = (.enclosed (k.opener ++ e.text) e.closed, e.rest) := by
  cases k with
  | character =>
      obtain ⟨rfl, rfl⟩ := List.cons.inj hcs
      rw [hcut.unique (cut_literal (by decide) cs)]
      rfl
  | string =>
      obtain ⟨rfl, rfl⟩ := List.cons.inj hcs
      rw [hcut.unique (cut_literal (by decide) cs)]
      rfl
  | line =>
      obtain ⟨rfl, rfl⟩ := List.cons.inj hcs
      rw [hcut.unique (cut_line text)]
      rfl
  | block =>
      obtain ⟨rfl, rfl⟩ := List.cons.inj hcs
      rw [hcut.unique (cut_block '*' text)]
      rfl

theorem readPlain_of_not_opener {c : Char} {cs : List Char}
    (h : ∀ k : Enclosure, ¬ k.opener <+: c :: cs) : readPlain c cs = (.char c, cs) := by
  unfold readPlain
  rw [if_neg]
  · split
    · exact absurd (List.prefix_append ['/', '/'] _) (h .line)
    · exact absurd (List.prefix_append ['/', '*'] _) (h .block)
    · rfl
  · rw [Bool.or_eq_true, beq_iff_eq, beq_iff_eq]
    rintro (rfl | rfl)
    · exact h .character (List.prefix_append ['\''] cs)
    · exact h .string (List.prefix_append ['"'] cs)

/-- Reading the item at the head of a text decides the grammar, wherever the text stands. -/
theorem read_eq_ok_iff {pos : Nat} {c : Char} {cs rest : List Char} {i : Item} :
    read pos c cs = .ok (i, rest) ↔ Begins (c :: cs) i rest := by
  constructor
  · intro h
    unfold read at h
    split at h
    · next t r hread =>
        cases h
        exact .tag (Tag.read?_eq_ok_iff.1 hread)
    · cases h
    · next hread =>
        have hbegins := begins_readPlain (Tag.read?_eq_none_iff.1 hread)
        rw [Except.ok.inj h] at hbegins
        exact hbegins
  · intro h
    unfold read
    cases h with
    | tag h => rw [Tag.read?_eq_ok_iff.2 h]
    | enclosed k hopen hcs hcut =>
        rw [Tag.read?_eq_none_iff.2 hopen]
        dsimp only
        rw [readPlain_of_cut hcs hcut]
    | char hopen hnone hcs =>
        cases hcs
        rw [Tag.read?_eq_none_iff.2 hopen]
        dsimp only
        rw [readPlain_of_not_opener hnone]

end Item
end Loopsmith
