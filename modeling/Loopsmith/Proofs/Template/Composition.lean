import Loopsmith.Proofs.Template.Layout

/-!
# Scanning one text after another

A template may be put together from parts.  If the first part can be cut off, the second is
scanned as if it stood alone: the same tags are found in it and the same fault, only further
on, and the whole renders as the two parts do.

What cutting off takes is that nothing which began in the first part is still waiting for its
end, and that nothing can begin there and go on in the second.  The scanner looks ahead from
the head of an item only, and all that it looks for behind a single character starts with a
slash.  So apart from the unclosed items there is just one bad ending: a slash that is a
character of its own.

Two facts carry the proof.  An item that begins at the head of a text begins there whatever is
written behind the text (`Item.Begins.append`).  And the scanner knows where a text stands only
to say where a fault is (`Item.scan_add`).
-/

namespace Loopsmith

open Text (byteLength)

/-! ## What is written behind an item -/

section

variable {cs a b rest : List Char}

/-- Every tag opener opens a block comment, too. -/
theorem OpensTag.opens_block (h : OpensTag cs) : Enclosure.block.opener <+: cs := by
  rcases h with h | h
  · exact List.IsPrefix.trans ⟨['<', 'D', 'O', 'P', 'I', 'N', 'G', ' '], rfl⟩ h
  · exact List.IsPrefix.trans ⟨['<', 'D', 'O', 'P', 'I', 'N', 'G', '_', 'I', 'F', ' '], rfl⟩ h

/-- The only proper part of the opener of a literal or comment is a slash. -/
theorem Enclosure.eq_slash_of_isPrefix {k : Enclosure} {c : Char} (h : c :: rest <+: k.opener)
    (hk : ¬ k.opener <+: c :: rest) : c = '/' ∧ rest = [] := by
  have hlen : (c :: rest).length < k.opener.length := by
    refine Nat.lt_of_le_of_ne h.length_le fun heq => hk ?_
    exact (h.eq_of_length heq).symm ▸ List.prefix_rfl
  have hshort : k.opener.length ≤ 2 := by cases k <;> simp [opener]
  have hrest : rest = [] := by
    rw [List.length_cons] at hlen
    exact List.length_eq_zero_iff.1 (by omega)
  cases k <;> simp_all [opener]

/-- A block comment that is closed does not fit into a tag opener: there is no slash behind the
first character of one. -/
theorem not_endsBlock_of_opener {u t : List Char} {before : Char}
    (h : Enclosure.block.opener ++ u <+: substitutionOpener ∨
      Enclosure.block.opener ++ u <+: conditionalOpener) (ht : t <+: u) :
    ¬ EndsBlock before t := by
  have hu : u <+: ['<', 'D', 'O', 'P', 'I', 'N', 'G', ' '] ∨
      u <+: ['<', 'D', 'O', 'P', 'I', 'N', 'G', '_', 'I', 'F', ' '] := by
    simpa [Enclosure.opener, substitutionOpener, conditionalOpener] using h
  rintro ⟨v, rfl, -⟩
  have hslash : '/' ∈ u := ht.subset (by simp)
  rcases hu with hu | hu
  · exact absurd (hu.subset hslash) (by decide)
  · exact absurd (hu.subset hslash) (by decide)

/-- A tag opener that is not yet in `a` takes up the whole of `a`. -/
theorem isPrefix_opener_of_append (h : OpensTag (a ++ b)) (ha : ¬ OpensTag a) :
    a <+: substitutionOpener ∨ a <+: conditionalOpener := by
  have hpre : a <+: a ++ b := List.prefix_append a b
  rcases h with h | h
  · rcases List.prefix_or_prefix_of_prefix h hpre with h | h
    · exact absurd (.inl h) ha
    · exact .inl h
  · rcases List.prefix_or_prefix_of_prefix h hpre with h | h
    · exact absurd (.inr h) ha
    · exact .inr h

theorem Cut.append {Ends : List Char → Prop} {e : Enclosed} (h : Cut Ends a e)
    (hclosed : e.closed = true) (b : List Char) :
    Cut Ends (a ++ b) { e with rest := e.rest ++ b } := by
  cases h with
  | closed hcs h => exact .closed (by rw [← hcs, List.append_assoc]) h
  | unclosed => cases hclosed

theorem Tag.Begins.append {t : Tag} (h : t.Begins a rest) (b : List Char) :
    t.Begins (a ++ b) (rest ++ b) := by
  cases h with
  | substitution hname hcs => exact .substitution hname (by rw [hcs, List.append_assoc])
  | conditional hname hbody hcs => exact .conditional hname hbody (by rw [hcs, List.append_assoc])

namespace Item

/-- An item without its end takes all of the text. -/
theorem Begins.rest_eq_nil {i : Item} (h : i.Begins cs rest) (hclosed : i.closed = false) :
    rest = [] := by
  cases h with
  | tag => cases hclosed
  | enclosed k hopen hcs hcut =>
      cases hcut with
      | closed => cases hclosed
      | unclosed => rfl
  | char => cases hclosed

/-- An item that has its end does not depend on what is written behind the text, unless it is a
slash at the end. -/
theorem Begins.append {i : Item} (h : i.Begins a rest) (hclosed : i.closed = true)
    (hslash : i = .char '/' → rest ≠ []) (b : List Char) : i.Begins (a ++ b) (rest ++ b) := by
  cases h with
  | tag h => exact .tag (h.append b)
  | @enclosed k text e hopen hcs hcut =>
      have hopen' : ¬ OpensTag (a ++ b) := by
        intro h
        have ha := isPrefix_opener_of_append h hopen
        have hpre : k.opener <+: a := ⟨text, hcs.symm⟩
        -- only a block comment can start like a tag, and it would have to end in the opener
        cases k with
        | character => simp [hcs, Enclosure.opener, substitutionOpener, conditionalOpener] at ha
        | string => simp [hcs, Enclosure.opener, substitutionOpener, conditionalOpener] at ha
        | line => simp [hcs, Enclosure.opener, substitutionOpener, conditionalOpener] at ha
        | block =>
            cases hcut with
            | closed htext hends =>
                rw [hcs] at ha
                exact not_endsBlock_of_opener ha ⟨_, htext⟩ hends.1
            | unclosed => cases hclosed
      exact .enclosed k hopen' (by rw [hcs, List.append_assoc]) (hcut.append hclosed b)
  | @char c rest hopen hnone hcs =>
      have hnone' : ∀ k : Enclosure, ¬ k.opener <+: a ++ b := by
        intro k hk
        rcases List.prefix_or_prefix_of_prefix hk (List.prefix_append a b) with h | h
        · exact hnone k h
        · rw [hcs] at h hnone
          obtain ⟨rfl, hrest⟩ := Enclosure.eq_slash_of_isPrefix h (hnone k)
          exact hslash rfl hrest
      exact .char (fun h => hnone' .block h.opens_block) hnone' (by rw [hcs, List.cons_append])

end Item
end

/-! ## Where a text stands -/

/-- The same fault `n` bytes further on. -/
def TagError.shift (e : TagError) (n : Nat) : TagError :=
  ⟨e.fault, e.span.shift n⟩

def RenderError.shift (e : RenderError) (n : Nat) : RenderError :=
  match e with
  | tag e => tag (e.shift n)
  | unbound name span => unbound name (span.shift n)

namespace Tag

/-- The same place `n` bytes further on. -/
def Place.shift (p : Place) (n : Nat) : Place :=
  ⟨p.opener + n, p.stop + n⟩

theorem Place.ofText_add (pos n : Nat) (cs : List Char) :
    Place.ofText (pos + n) cs = (Place.ofText pos cs).shift n := by
  simp only [Place.ofText, Place.shift, Place.mk.injEq, true_and]
  omega

theorem Place.faultAt_shift {p : Place} {c : Char} {rest : List Char}
    (h : byteLength (c :: rest) ≤ p.stop) (fault : TagFault) (n : Nat) :
    (p.shift n).faultAt fault c rest = (p.faultAt fault c rest).shift n := by
  simp only [Place.faultAt, Place.shift, TagError.shift, Span.shift, Span.ofWidth,
    TagError.mk.injEq, Span.mk.injEq, true_and]
  omega

theorem byteLength_dropWhile_le (f : Char → Bool) (cs : List Char) :
    byteLength (cs.dropWhile f) ≤ byteLength cs := by
  conv => rhs; rw [← List.takeWhile_append_dropWhile (p := f) (l := cs), Text.byteLength_append]
  omega

theorem mapError_bind {α β : Type} (x : Except TagError α) (f : α → Except TagError β)
    (g : TagError → TagError) :
    (x >>= f).mapError g = x.mapError g >>= fun a => (f a).mapError g := by
  cases x with
  | error e => rfl
  | ok a => rfl

theorem readName_shift {p : Place} {cs : List Char} (h : byteLength cs ≤ p.stop) (n : Nat) :
    readName (p.shift n) cs = (readName p cs).mapError (·.shift n) := by
  have hdrop := (byteLength_dropWhile_le isNameChar cs).trans h
  unfold readName
  generalize cs.dropWhile isNameChar = rest at hdrop
  cases rest with
  | nil => rfl
  | cons c rest =>
      dsimp only
      split
      · exact congrArg Except.error (Place.faultAt_shift hdrop _ n)
      · split
        · rfl
        · exact congrArg Except.error (Place.faultAt_shift hdrop _ n)

theorem readSubstitution_shift {p : Place} {cs : List Char} (h : byteLength cs ≤ p.stop)
    (n : Nat) : readSubstitution (p.shift n) cs = (readSubstitution p cs).mapError (·.shift n) := by
  have hlead := (byteLength_dropWhile_le isSpace cs).trans h
  unfold readSubstitution
  rw [readName_shift hlead, mapError_bind]
  cases hname : readName p (cs.dropWhile isSpace) with
  | error e => rfl
  | ok nr =>
      obtain ⟨name, after⟩ := nr
      have hafter : byteLength after ≤ p.stop := by
        rw [readName_source hname] at hlead
        simp only [Text.byteLength_append, Text.byteLength_cons] at hlead
        omega
      have hrest := (byteLength_dropWhile_le isSpace after).trans hafter
      dsimp only [Except.mapError, bind, Except.bind]
      generalize after.dropWhile isSpace = rest at hrest
      split
      · rfl
      · cases rest with
        | nil => rfl
        | cons c rest =>
            dsimp only
            split
            · rfl
            · exact congrArg Except.error (Place.faultAt_shift hrest _ n)

theorem readConditional_shift {p : Place} {cs : List Char} (h : byteLength cs ≤ p.stop)
    (n : Nat) : readConditional (p.shift n) cs = (readConditional p cs).mapError (·.shift n) := by
  have hlead := (byteLength_dropWhile_le isSpace cs).trans h
  unfold readConditional
  rw [readName_shift hlead, mapError_bind]
  cases readName p (cs.dropWhile isSpace) with
  | error e => rfl
  | ok nr =>
      dsimp only [Except.mapError, bind, Except.bind]
      split
      · rfl
      · rfl

theorem read?_add (pos n : Nat) (cs : List Char) :
    read? (pos + n) cs = (read? pos cs).map fun r => r.mapError (·.shift n) := by
  have hlen : ∀ {p rest : List Char}, p.isPrefixOf? cs = some rest →
      byteLength rest ≤ (Place.ofText pos cs).stop := by
    intro p rest h
    have hcs := congrArg byteLength (eq_append_of_isPrefixOf? h)
    rw [Text.byteLength_append] at hcs
    simp only [Place.ofText]
    omega
  unfold read?
  rw [Place.ofText_add]
  split
  · next h => exact congrArg some (readConditional_shift (hlen h) n)
  · split
    · next h => exact congrArg some (readSubstitution_shift (hlen h) n)
    · rfl

end Tag

namespace Item

theorem read_add (pos n : Nat) (c : Char) (cs : List Char) :
    read (pos + n) c cs = (read pos c cs).mapError (·.shift n) := by
  unfold read
  rw [Tag.read?_add]
  rcases Tag.read? pos (c :: cs) with _ | (e | ⟨t, rest⟩)
  · rfl
  · rfl
  · rfl

/-- What follows an item is scanned from where the item ends. -/
theorem scan_cons_of_read {pos : Nat} {c : Char} {cs rest : List Char} {i : Item}
    (h : read pos c cs = .ok (i, rest)) :
    scan pos (c :: cs) = (scan (pos + byteLength i.source) rest).map (i :: ·) := by
  cases hscan : scan (pos + byteLength i.source) rest with
  | ok is => exact scan_of_read h hscan
  | error e =>
      rw [scan]
      split
      · next h' => rw [h] at h'; cases h'
      · next h' =>
          rw [h] at h'
          cases h'
          rw [hscan]
          rfl

theorem scan_of_read_error {pos : Nat} {c : Char} {cs : List Char} {e : TagError}
    (h : read pos c cs = .error e) : scan pos (c :: cs) = .error e := by
  rw [scan]
  split
  · next h' => rw [h] at h'; cases h'; rfl
  · next h' => rw [h] at h'; cases h'

/-- Where a text stands shows only in where its fault is. -/
theorem scan_add (pos n : Nat) (cs : List Char) :
    scan (pos + n) cs = (scan pos cs).mapError (·.shift n) := by
  induction hlen : cs.length using Nat.strong_induction_on generalizing pos cs with
  | _ len ih =>
      subst hlen
      cases cs with
      | nil => rw [scan, scan]; rfl
      | cons c cs =>
          have hadd := read_add pos n c cs
          cases hread : read pos c cs with
          | error e =>
              rw [hread] at hadd
              rw [scan_of_read_error hread, scan_of_read_error hadd]
              rfl
          | ok ir =>
              obtain ⟨i, rest⟩ := ir
              rw [hread] at hadd
              rw [scan_cons_of_read hread, scan_cons_of_read hadd, Nat.add_right_comm,
                ih _ (length_lt_of_read hread) _ rest rfl]
              cases scan (pos + byteLength i.source) rest with
              | error e => rfl
              | ok is => rfl

end Item

/-! ## The items of two texts -/

/-- The item ends by a marker of its own, so that a slash at its end is a part of it. -/
def Item.isCommentOrTag : Item → Bool
  | char _ => false
  | enclosed text _ => text.head? == some '/'
  | tag _ => true

theorem Lexes.eq_nil {is : List Item} (h : Lexes [] is) : is = [] := by
  cases h with
  | nil => rfl
  | cons hi _ => exact absurd rfl hi.ne_nil

/-- A text that can be cut off is scanned by itself, and what follows it as well. -/
theorem Lexes.scan_append {cs : List Char} {is : List Item} (h : Lexes cs is)
    (hclosed : ∀ i ∈ is, i.closed = true) (hlast : is.getLast? ≠ some (.char '/'))
    (pos : Nat) (more : List Char) :
    Item.scan pos (cs ++ more) = (Item.scan (pos + byteLength cs) more).map (is ++ ·) := by
  induction h generalizing pos with
  | nil =>
      change Item.scan pos more = (Item.scan pos more).map fun js => js
      cases Item.scan pos more with
      | error e => rfl
      | ok js => rfl
  | @cons cs rest i is hi h ih =>
      obtain ⟨hic, hisc⟩ := List.forall_mem_cons.1 hclosed
      have hslash : i = .char '/' → rest ≠ [] := by
        rintro rfl rfl
        rw [h.eq_nil] at hlast
        exact hlast rfl
      have hlast' : is.getLast? ≠ some (.char '/') := by
        intro hl
        rw [List.getLast?_cons, hl] at hlast
        exact hlast rfl
      have hbegins := hi.append hic hslash more
      obtain ⟨c, cs', hcs⟩ := List.exists_cons_of_ne_nil hbegins.ne_nil
      have hwidth : byteLength cs = byteLength i.source + byteLength rest := by
        rw [← hi.source, Text.byteLength_append]
      rw [hcs] at hbegins ⊢
      rw [Item.scan_cons_of_read (Item.read_eq_ok_iff.2 hbegins), ih hisc hlast', hwidth,
        Nat.add_assoc]
      cases Item.scan (pos + (byteLength i.source + byteLength rest)) more with
      | error e => rfl
      | ok js => rfl

/-- The last character of a text ends its last item. -/
theorem Lexes.getLast?_ne {s : String} {is : List Item} (h : Lexes s.toList is)
    (hslash : s = "" ∨ s.toList.getLast? ≠ some '/' ∨
      ∃ i, is.getLast? = some i ∧ i.isCommentOrTag = true) :
    is.getLast? ≠ some (.char '/') := by
  intro hlast
  rcases hslash with rfl | hne | ⟨i, hi, hmark⟩
  · rw [h.eq_nil] at hlast
    cases hlast
  · obtain ⟨js, rfl⟩ := List.getLast?_eq_some_iff.1 hlast
    rw [← h.source, List.flatMap_append] at hne
    exact hne List.getLast?_concat
  · rw [hlast] at hi
    cases hi
    cases hmark

/-! ## The tags of a template -/

/-- A tag where it was found. -/
structure FoundTag where
  tag : Tag
  span : Span
  /-- The bytes of its body, if it has one. -/
  body : Option Span
  deriving DecidableEq, Repr

def FoundTag.shift (t : FoundTag) (n : Nat) : FoundTag :=
  ⟨t.tag, t.span.shift n, t.body.map (·.shift n)⟩

namespace Template

/-- The tag `t` in the place of a segment. -/
def Placed.found (p : Placed) (t : Tag) : FoundTag :=
  { tag := t
    span := p.span
    body := match t with
      | .substitution _ _ _ => none
      | .conditional _ _ body => some (p.bodySpan body) }

/-- The tag that the segment is. -/
def Placed.tag? (p : Placed) : Option FoundTag :=
  match p.piece with
  | .text _ => none
  | .tag t => some (p.found t)

/-- The tags of a template in order. -/
def tags (t : Template) : List FoundTag :=
  t.placed.filterMap Placed.tag?

/-- The tags of items that stand at byte `pos`. -/
def tagsFrom (pos : Nat) (is : List Item) : List FoundTag :=
  (place pos (gather is)).filterMap Placed.tag?

/-- A tag that starts at byte `pos`. -/
def foundAt (pos : Nat) (t : Tag) : FoundTag :=
  Placed.found ⟨.tag t, Span.ofWidth pos (byteLength t.source)⟩ t

theorem tagsFrom_tag (pos : Nat) (t : Tag) (is : List Item) :
    tagsFrom pos (.tag t :: is) = foundAt pos t :: tagsFrom (pos + byteLength t.source) is := rfl

/-- What is joined into a text moves the tags behind it, and that is all. -/
theorem tagsFrom_text {i : Item} (hi : i.isText = true) (pos : Nat) (is : List Item) :
    tagsFrom pos (i :: is) = tagsFrom (pos + byteLength i.source) is := by
  unfold tagsFrom
  rw [gather_cons_of_isText hi]
  rcases gather is with _ | ⟨t | t, ps⟩
  · rfl
  · simp only [place, Piece.source, Text.byteLength_append, Nat.add_assoc]
    rfl
  · rfl

theorem foundAt_add (pos n : Nat) (t : Tag) : foundAt (pos + n) t = (foundAt pos t).shift n := by
  cases t with
  | substitution lead name trail =>
      simp only [foundAt, Placed.found, FoundTag.shift, Span.ofWidth, Span.shift,
        Option.map_none, FoundTag.mk.injEq, Span.mk.injEq, true_and, and_true]
      omega
  | conditional lead name body =>
      simp only [foundAt, Placed.found, Placed.bodySpan, source_conditional, FoundTag.shift,
        Span.ofWidth, Span.shift, Text.byteLength_append, Option.map_some, FoundTag.mk.injEq,
        Span.mk.injEq, Option.some.injEq, true_and]
      omega

theorem tagsFrom_add (pos n : Nat) (is : List Item) :
    tagsFrom (pos + n) is = (tagsFrom pos is).map (·.shift n) := by
  induction is generalizing pos with
  | nil => rfl
  | cons i is ih =>
      cases hi : i.isText with
      | true => rw [tagsFrom_text hi, tagsFrom_text hi, Nat.add_right_comm, ih]
      | false =>
          cases i with
          | char c => cases hi
          | enclosed text closed => cases hi
          | tag t =>
              rw [tagsFrom_tag, tagsFrom_tag, foundAt_add, Nat.add_right_comm, ih, List.map_cons]

theorem tagsFrom_append (pos : Nat) (is js : List Item) :
    tagsFrom pos (is ++ js) =
      tagsFrom pos is ++ tagsFrom (pos + byteLength (is.flatMap Item.source)) js := by
  induction is generalizing pos with
  | nil => rfl
  | cons i is ih =>
      rw [List.cons_append, List.flatMap_cons, Text.byteLength_append, ← Nat.add_assoc]
      cases hi : i.isText with
      | true => rw [tagsFrom_text hi, tagsFrom_text hi, ih]
      | false =>
          cases i with
          | char c => cases hi
          | enclosed text closed => cases hi
          | tag t =>
              rw [tagsFrom_tag, tagsFrom_tag, ih]
              rfl

/-! ## Rendering one text after another -/

/-- What items become one after another. -/
inductive Renders (ps : Parameters) : List Item → List Char → Prop where
  | nil : Renders ps [] []
  | text {i : Item} {is : List Item} {out : List Char} (hi : i.isText = true)
      (h : Renders ps is out) : Renders ps (i :: is) (i.source ++ out)
  | tag {t : Tag} {is : List Item} {out : List Char} {value : String}
      (hvalue : ps.get? t.name = some value) (h : Renders ps is out) :
      Renders ps (.tag t :: is) (expand value t ++ out)

variable {ps : Parameters}

theorem Renders.append {is js : List Item} {out₁ out₂ : List Char} (h₁ : Renders ps is out₁)
    (h₂ : Renders ps js out₂) : Renders ps (is ++ js) (out₁ ++ out₂) := by
  induction h₁ with
  | nil => exact h₂
  | text hi _ ih => rw [List.append_assoc]; exact .text hi ih
  | tag hvalue _ ih => rw [List.append_assoc]; exact .tag hvalue ih

theorem renderAll_text (t : List Char) (span : Span) (rest : List Placed) :
    renderAll ps (⟨.text t, span⟩ :: rest) = (renderAll ps rest).map (t ++ ·) := by
  rw [renderAll]
  simp only [renderPlaced]
  cases renderAll ps rest with
  | error e => rfl
  | ok out => rfl

theorem renderAll_tag_eq_ok_iff {t : Tag} {span : Span} {rest : List Placed} {out : List Char} :
    renderAll ps (⟨.tag t, span⟩ :: rest) = .ok out ↔
      ∃ value more, ps.get? t.name = some value ∧ renderAll ps rest = .ok more ∧
        expand value t ++ more = out := by
  rw [renderAll]
  simp only [renderPlaced]
  cases ps.get? t.name with
  | none => simp
  | some value =>
      cases renderAll ps rest with
      | error e => simp
      | ok more => simp

theorem renderAll_gather_text {i : Item} (hi : i.isText = true) (pos : Nat) (is : List Item) :
    renderAll ps (place pos (gather (i :: is))) =
      (renderAll ps (place (pos + byteLength i.source) (gather is))).map (i.source ++ ·) := by
  rw [gather_cons_of_isText hi]
  rcases gather is with _ | ⟨t | t, pieces⟩
  · rfl
  · -- the text that comes next has been joined to this one
    simp only [place, renderAll_text, Piece.source, Text.byteLength_append, Nat.add_assoc]
    cases renderAll ps (place (pos + (byteLength i.source + byteLength t)) pieces) with
    | error e => rfl
    | ok out => simp [Except.map]
  · exact renderAll_text _ _ _

/-- Rendering goes item by item, wherever the items stand. -/
theorem renderAll_gather_eq_ok_iff {pos : Nat} {is : List Item} {out : List Char} :
    renderAll ps (place pos (gather is)) = .ok out ↔ Renders ps is out := by
  induction is generalizing pos out with
  | nil =>
      constructor
      · rintro ⟨⟩
        exact .nil
      · rintro ⟨⟩
        rfl
  | cons i is ih =>
      cases hi : i.isText with
      | true =>
          rw [renderAll_gather_text hi]
          constructor
          · intro h
            cases hrest : renderAll ps (place (pos + byteLength i.source) (gather is)) with
            | error e =>
                rw [hrest] at h
                cases h
            | ok more =>
                rw [hrest] at h
                cases h
                exact .text hi (ih.1 hrest)
          · intro h
            cases h with
            | text _ h => rw [ih.2 h]; rfl
            | tag => cases hi
      | false =>
          cases i with
          | char c => cases hi
          | enclosed text closed => cases hi
          | tag t =>
              refine renderAll_tag_eq_ok_iff.trans ⟨?_, ?_⟩
              · rintro ⟨value, more, hvalue, hmore, rfl⟩
                exact .tag hvalue (ih.1 hmore)
              · intro h
                cases h with
                | text hi _ => cases hi
                | tag hvalue h => exact ⟨_, _, hvalue, ih.2 h, rfl⟩

theorem render_eq_ok_iff {t : Template} {is : List Item} (ht : t.pieces = gather is)
    {out : String} : t.render ps = .ok out ↔ Renders ps is out.toList := by
  have hplaced : t.placed = place 0 (gather is) := by rw [placed, ht]
  have hrenders : renderAll ps t.placed = .ok out.toList ↔ Renders ps is out.toList := by
    rw [hplaced]
    exact renderAll_gather_eq_ok_iff
  rw [← hrenders]
  unfold render
  cases renderAll ps t.placed with
  | error e => simp [Except.map]
  | ok cs =>
      simp only [Except.map, Except.ok.injEq]
      constructor
      · rintro rfl
        rw [String.toList_ofList]
      · rintro rfl
        exact String.ofList_toList

theorem parse_eq_error_iff {source : String} {e : RenderError} :
    parse source = .error e ↔ ∃ fault, Item.scan 0 source.toList = .error fault ∧ e = .tag fault := by
  unfold parse ofChars?
  cases Item.scan 0 source.toList with
  | error fault => simp [Except.map, Except.mapError, eq_comm]
  | ok is => simp [Except.map, Except.mapError]

/-- **Scanning is compositional.**  Let the scan of `s₁` succeed and end outside of literals,
comments and tags, and let `s₁` not end in a slash unless it closes a comment or a tag.  Then
`s₁ ++ s₂` is scanned as `s₂` is from scratch: a fault of `s₂` is the fault of the whole, moved
by the bytes of `s₁`; otherwise the tags of `s₂`, moved likewise, follow those of `s₁`, and the
whole renders to the two renderings one after the other. -/
theorem parse_append_of_normal {s₁ s₂ : String} {is : List Item}
    (hscan : Item.scan 0 s₁.toList = .ok is) (hnormal : ∀ i ∈ is, i.closed = true)
    (hslash : s₁ = "" ∨ s₁.toList.getLast? ≠ some '/' ∨
      ∃ i, is.getLast? = some i ∧ i.isCommentOrTag = true) :
    ∃ t₁, parse s₁ = .ok t₁ ∧
      (∀ e, parse s₂ = .error e →
        parse (s₁ ++ s₂) = .error (e.shift (byteLength s₁.toList))) ∧
      ∀ t₂, parse s₂ = .ok t₂ → ∃ t, parse (s₁ ++ s₂) = .ok t ∧
        t.tags = t₁.tags ++ t₂.tags.map (·.shift (byteLength s₁.toList)) ∧
        ∀ ps out₁ out₂, t₁.render ps = .ok out₁ → t₂.render ps = .ok out₂ →
          t.render ps = .ok (out₁ ++ out₂) := by
  have hlexes : Lexes s₁.toList is := Item.scan_eq_ok_iff.1 hscan
  have hlast : is.getLast? ≠ some (.char '/') := hlexes.getLast?_ne hslash
  have happend := hlexes.scan_append hnormal hlast 0 s₂.toList
  rw [Nat.zero_add] at happend
  have hadd := Item.scan_add 0 (byteLength s₁.toList) s₂.toList
  rw [Nat.zero_add] at hadd
  rw [hadd, ← String.toList_append] at happend
  refine ⟨⟨gather is⟩, parse_eq_ok_iff.2 ⟨is, hlexes, rfl⟩, ?_, ?_⟩
  · intro e he
    obtain ⟨fault, hfault, rfl⟩ := parse_eq_error_iff.1 he
    rw [hfault] at happend
    exact parse_eq_error_iff.2 ⟨_, happend, rfl⟩
  · intro t₂ ht₂
    obtain ⟨js, hjs, hpieces⟩ := parse_eq_ok_iff.1 ht₂
    rw [Item.scan_eq_ok_iff.2 hjs] at happend
    have hlexes' : Lexes (s₁ ++ s₂).toList (is ++ js) := Item.scan_eq_ok_iff.1 happend
    refine ⟨⟨gather (is ++ js)⟩, parse_eq_ok_iff.2 ⟨_, hlexes', rfl⟩, ?_, ?_⟩
    · have htags : t₂.tags = tagsFrom 0 js := by rw [tags, placed, hpieces]; rfl
      rw [htags, ← tagsFrom_add, Nat.zero_add, ← hlexes.source]
      have := tagsFrom_append 0 is js
      rwa [Nat.zero_add] at this
    · intro ps out₁ out₂ h₁ h₂
      refine (render_eq_ok_iff rfl).2 ?_
      rw [String.toList_append]
      exact ((render_eq_ok_iff rfl).1 h₁).append ((render_eq_ok_iff hpieces).1 h₂)

/-- The slash that closes a tag opens nothing with the star behind it. -/
theorem parse_append_behind_tag :
    (∃ t, parse ("é/*c*//*<DOPING A >*/" ++ "*/*<DOPING_IF B /y>*/") = .ok t ∧
      t.tags = [⟨.substitution 0 "A" 0, ⟨7, 22⟩, none⟩,
        ⟨.conditional 0 "B" ['/', 'y'], ⟨23, 43⟩, some ⟨38, 40⟩⟩] ∧
      t.render ⟨[("A", "1"), ("B", "2")]⟩ = .ok ("é/*c*/1" ++ "*/y")) ∧
      parse ("é/*c*//*<DOPING A >*/" ++ "*/*<DOPING ?") = .error (.tag ⟨.emptyName, 33, 34⟩) := by
  have hscan : Item.scan 0 "é/*c*//*<DOPING A >*/".toList =
      .ok [.char 'é', .enclosed "/*c*/".toList true, .tag (.substitution 0 "A" 0)] := by
    decide +kernel
  have hnormal : ∀ i ∈ [Item.char 'é', .enclosed "/*c*/".toList true,
      .tag (.substitution 0 "A" 0)], i.closed = true := by
    decide +kernel
  have hslash : ∃ i, [Item.char 'é', .enclosed "/*c*/".toList true,
      .tag (.substitution 0 "A" 0)].getLast? = some i ∧ i.isCommentOrTag = true :=
    ⟨_, rfl, rfl⟩
  have hfirst : parse "é/*c*//*<DOPING A >*/" =
      .ok ⟨[.text "é/*c*/".toList, .tag (.substitution 0 "A" 0)]⟩ := by
    decide +kernel
  have hsecond : parse "*/*<DOPING_IF B /y>*/" =
      .ok ⟨[.text ['*'], .tag (.conditional 0 "B" ['/', 'y'])]⟩ := by
    decide +kernel
  constructor
  · obtain ⟨t₁, ht₁, -, hparse⟩ := parse_append_of_normal hscan hnormal (.inr (.inr hslash))
    cases hfirst.symm.trans ht₁
    obtain ⟨t, ht, htags, hrender⟩ := hparse _ hsecond
    refine ⟨t, ht, htags.trans (by decide +kernel), hrender _ _ _ ?_ ?_⟩
    · decide +kernel
    · decide +kernel
  · obtain ⟨-, -, herror, -⟩ := parse_append_of_normal hscan hnormal (.inr (.inr hslash))
    exact (herror (.tag ⟨.emptyName, 11, 12⟩) (by decide +kernel)).trans (by decide +kernel)

end Template
end Loopsmith
