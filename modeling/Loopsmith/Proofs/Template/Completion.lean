import Loopsmith.Proofs.Template.Composition

/-!
# Texts that can still be completed

A template may arrive in parts, or be looked at while it is being typed.  A tag without its end is
then no mistake yet, and the scanner tells it from a tag that is wrong: it says `unterminated`
exactly if some more text would make the whole a template, and any other fault only if none would.
A fault that is there stays there, at the same place and with the same character.

Both halves are about one tag.  A reader of tags that fails either ran out of text, and then the
text is the beginning of a tag, or met a character that is in the way, and then it meets the same
character in any longer text (`Tag.Stuck`).  What stands in front of the tag has been read by then,
and a longer text does not change it: an item with text behind it has its end, so `LexesTo`, which
describes how far reading has come, does not look at the end of the text.
-/

namespace Loopsmith

open Text (byteLength)

/-! ## How a reader of tags gets stuck -/

/-- The faults that the character `c` can be. -/
inductive TagFault.IsAt (c : Char) : TagFault → Prop where
  | emptyName : IsAt c .emptyName
  | invalidNameCharacter : IsAt c (.invalidNameCharacter c)
  | expectedClose : IsAt c (.expectedClose c)

theorem TagFault.IsAt.ne_unterminated {c : Char} {fault : TagFault} (h : fault.IsAt c) :
    fault ≠ .unterminated := by
  rintro rfl
  cases h

namespace Tag

/-- A character is in the way, and more text makes no difference. -/
inductive Malformed {α : Type} (reader : Place → List Char → Except TagError (α × List Char))
    (p : Place) (cs : List Char) : TagError → Prop where
  | intro {fault : TagFault} {c : Char} {after : List Char} (before : List Char)
      (hcs : cs = before ++ c :: after) (hfault : fault.IsAt c)
      (h : ∀ q more, reader q (cs ++ more) = .error (q.faultAt fault c (after ++ more))) :
      Malformed reader p cs (p.faultAt fault c after)

/-- How a reader can fail: the text ends too early, and some more text would do, or a character
is in the way. -/
inductive Stuck {α : Type} (reader : Place → List Char → Except TagError (α × List Char))
    (p : Place) (cs : List Char) : TagError → Prop where
  | cutOff (more : List Char) {a : α} (h : ∀ q, reader q (cs ++ more) = .ok (a, [])) :
      Stuck reader p cs p.unterminated
  | malformed {e : TagError} (h : Malformed reader p cs e) : Stuck reader p cs e

/-- What is taken off the head of a text is the same in a longer text, if something is left. -/
theorem dropWhile_append_of_ne_nil {f : Char → Bool} {cs : List Char} (h : cs.dropWhile f ≠ [])
    (more : List Char) : (cs ++ more).dropWhile f = cs.dropWhile f ++ more := by
  rw [List.dropWhile_append, if_neg (by simpa using h)]

theorem takeWhile_append_of_ne_nil {f : Char → Bool} {cs : List Char} (h : cs.dropWhile f ≠ [])
    (more : List Char) : (cs ++ more).takeWhile f = cs.takeWhile f := by
  have hboth := List.takeWhile_append_dropWhile (p := f) (l := cs ++ more)
  rw [dropWhile_append_of_ne_nil h] at hboth
  have hcs := List.takeWhile_append_dropWhile (p := f) (l := cs)
  rw [← List.append_assoc] at hboth
  conv at hboth => rhs; rw [← hcs]
  exact List.append_cancel_right (List.append_cancel_right hboth)

/-- Reading a name fails on a text of name characters, for want of the space behind it, or at
the first character that is none. -/
theorem readName_eq_error {p : Place} {cs : List Char} {e : TagError}
    (h : readName p cs = .error e) :
    (e = p.unterminated ∧ ∀ c ∈ cs, isNameChar c = true) ∨ Malformed readName p cs e := by
  have happ := List.takeWhile_append_dropWhile (p := isNameChar) (l := cs)
  by_cases hd : cs.dropWhile isNameChar = []
  · refine .inl ⟨?_, List.dropWhile_eq_nil_iff.1 hd⟩
    simp only [readName, hd] at h
    exact (Except.error.inj h).symm
  · right
    -- how a longer text is read differs in the rest only
    have hlong : ∀ more, (cs ++ more).takeWhile isNameChar = cs.takeWhile isNameChar ∧
        (cs ++ more).dropWhile isNameChar = cs.dropWhile isNameChar ++ more :=
      fun more => ⟨takeWhile_append_of_ne_nil hd more, dropWhile_append_of_ne_nil hd more⟩
    obtain ⟨c, after, hc⟩ := List.exists_cons_of_ne_nil hd
    rw [hc] at happ
    simp only [hc] at hlong
    simp only [readName, hc] at h
    split at h
    · next hempty =>
        cases h
        refine .intro _ happ.symm .emptyName fun q more => ?_
        simp only [readName, (hlong more).1, (hlong more).2, List.cons_append, hempty, if_true]
    · next hempty =>
        split at h
        · cases h
        · next hspace =>
            cases h
            refine .intro _ happ.symm .invalidNameCharacter fun q more => ?_
            simp only [readName, (hlong more).1, (hlong more).2, List.cons_append, hempty, hspace,
              if_false, Bool.false_eq_true]

/-- A tag with a wrong name is wrong there. -/
theorem Malformed.of_readName {α : Type} {p : Place} {cs : List Char} {e : TagError}
    {reader : Place → List Char → Except TagError (α × List Char)}
    {next : Place → List Char → String × List Char → Except TagError (α × List Char)}
    (hreader : ∀ q cs, reader q cs = readName q (cs.dropWhile isSpace) >>= next q cs)
    (h : Malformed readName p (cs.dropWhile isSpace) e) : Malformed reader p cs e := by
  cases h with
  | @intro fault c after before hcs hfault h =>
      have hne : cs.dropWhile isSpace ≠ [] := by
        rw [hcs]
        simp
      refine .intro (cs.takeWhile isSpace ++ before) ?_ hfault fun q more => ?_
      · rw [List.append_assoc, ← hcs, List.takeWhile_append_dropWhile]
      · rw [hreader, dropWhile_append_of_ne_nil hne, h q more]
        rfl

/-- Spaces and name characters are the beginning of what every tag has behind its opener. -/
theorem exists_isName_of_spaces {cs : List Char}
    (h : ∀ c ∈ cs.dropWhile isSpace, isNameChar c = true) :
    ∃ lead name, IsName name ∧ cs ++ ['N'] = List.replicate lead ' ' ++ name.toList := by
  refine ⟨(cs.takeWhile isSpace).length, String.ofList (cs.dropWhile isSpace ++ ['N']), ?_, ?_⟩
  · rw [IsName, String.toList_ofList]
    refine ⟨by simp, List.forall_mem_append.2 ⟨h, ?_⟩⟩
    exact List.forall_mem_singleton.2 (by decide)
  · rw [String.toList_ofList, ← List.append_assoc, spaces_append]

theorem readName_append {p : Place} {cs after : List Char} {name : String}
    (h : readName p cs = .ok (name, after)) (q : Place) (more : List Char) :
    readName q (cs ++ more) = .ok (name, after ++ more) := by
  obtain ⟨hname, hcs⟩ := readName_eq_ok_iff.1 h
  refine readName_eq_ok_iff.2 ⟨hname, ?_⟩
  rw [hcs, List.append_assoc, List.cons_append]

/-- What a tag consists of behind its opener, as far as its name has been read. -/
theorem eq_append_of_readName {p : Place} {cs after : List Char} {name : String}
    (h : readName p (cs.dropWhile isSpace) = .ok (name, after)) :
    cs = List.replicate (cs.takeWhile isSpace).length ' ' ++ (name.toList ++ ' ' :: after) := by
  rw [← readName_source h, spaces_append]

theorem dropWhile_isSpace_ne_nil {p : Place} {cs after : List Char} {name : String}
    (h : readName p (cs.dropWhile isSpace) = .ok (name, after)) : cs.dropWhile isSpace ≠ [] := by
  rw [(readName_eq_ok_iff.1 h).2]
  simp

/-- A character that is neither a space nor the beginning of the closing marker is in the way of a
substitution tag. -/
theorem malformed_readSubstitution {p : Place} {cs after rest : List Char} {name : String}
    {c : Char} (hname : readName p (cs.dropWhile isSpace) = .ok (name, after))
    (hrest : after.dropWhile isSpace = c :: rest) (hclose : ¬ tagClose <+: c :: rest)
    (hpart : ¬ c :: rest <+: tagClose) :
    Malformed readSubstitution p cs (p.faultAt (.expectedClose c) c rest) := by
  have hafter : after.takeWhile isSpace ++ c :: rest = after := by
    rw [← hrest, List.takeWhile_append_dropWhile]
  have hcs : cs = List.replicate (cs.takeWhile isSpace).length ' ' ++
      (name.toList ++ ' ' :: after.takeWhile isSpace) ++ c :: rest := by
    rw [List.append_assoc, List.append_assoc, List.cons_append, hafter]
    exact eq_append_of_readName hname
  refine .intro _ hcs .expectedClose fun q more => ?_
  have hclose' : ¬ tagClose <+: c :: (rest ++ more) := by
    intro h
    rcases List.prefix_or_prefix_of_prefix h (List.prefix_append (c :: rest) more) with h | h
    · exact hclose h
    · exact hpart h
  have hpart' : (c :: (rest ++ more)).isPrefixOf tagClose = false := by
    rw [Bool.eq_false_iff, ne_eq, List.isPrefixOf_iff_prefix]
    exact fun h => hpart ((List.prefix_append (c :: rest) more).trans h)
  unfold readSubstitution
  rw [dropWhile_append_of_ne_nil (dropWhile_isSpace_ne_nil hname), readName_append hname]
  dsimp only [bind, Except.bind]
  rw [dropWhile_append_of_ne_nil (by rw [hrest]; simp), hrest, List.cons_append,
    isPrefixOf?_eq_none_iff.2 hclose']
  simp only [hpart', Bool.false_eq_true, if_false]

theorem stuck_readSubstitution {p : Place} {cs : List Char} {e : TagError}
    (h : readSubstitution p cs = .error e) : Stuck readSubstitution p cs e := by
  unfold readSubstitution at h
  cases hname : readName p (cs.dropWhile isSpace) with
  | error e' =>
      rw [hname] at h
      cases h
      rcases readName_eq_error hname with ⟨rfl, hchars⟩ | hmalformed
      · obtain ⟨lead, name, hname, hcs⟩ := exists_isName_of_spaces hchars
        refine .cutOff (['N'] ++ (' ' :: tagClose)) fun q =>
          readSubstitution_eq_ok_iff.2 ⟨lead, name, 0, rfl, hname, ?_⟩
        rw [← List.append_assoc, hcs, List.append_assoc]
        rfl
      · exact .malformed (.of_readName (fun _ _ => rfl) hmalformed)
  | ok nr =>
      obtain ⟨name, after⟩ := nr
      rw [hname] at h
      dsimp only [bind, Except.bind] at h
      -- what stands behind the name and the spaces is a part of the closing marker or not
      by_cases hpart : after.dropWhile isSpace <+: tagClose
      · obtain ⟨more, hmore⟩ := hpart
        have he : e = p.unterminated := by
          split at h
          · cases h
          · split at h
            · exact (Except.error.inj h).symm
            · next c rest hrest =>
                rw [hrest] at hmore h
                rw [if_pos (List.isPrefixOf_iff_prefix.2 ⟨more, hmore⟩)] at h
                exact (Except.error.inj h).symm
        subst he
        refine .cutOff more fun q => readSubstitution_eq_ok_iff.2
          ⟨(cs.takeWhile isSpace).length, name, (after.takeWhile isSpace).length, rfl,
            (readName_eq_ok_iff.1 hname).1, ?_⟩
        conv => lhs; rw [eq_append_of_readName hname, ← spaces_append after]
        rw [List.append_nil, ← hmore]
        simp only [List.append_assoc, List.cons_append]
      · split at h
        · cases h
        · next hclose =>
            split at h
            · next hnil => exact absurd (hnil ▸ List.nil_prefix) hpart
            · next c rest hrest =>
                rw [hrest] at hpart hclose h
                rw [if_neg (by rwa [List.isPrefixOf_iff_prefix])] at h
                cases h
                exact .malformed (malformed_readSubstitution hname hrest
                  (isPrefixOf?_eq_none_iff.1 hclose) hpart)

/-- The first end of a tag in a text without one, when the closing marker is written behind it. -/
theorem firstEnd_of_unended {body : List Char} (h : Unended EndsTag body) :
    FirstEnd EndsTag (body ++ tagClose) := by
  refine ⟨List.suffix_append body tagClose, fun t ht hends => ?_⟩
  rcases List.prefix_or_prefix_of_prefix ht (List.prefix_append body tagClose) with hpre | hpre
  · exact absurd hends (h t hpre)
  · obtain ⟨u, rfl⟩ := hpre
    have hu : u <+: tagClose := (List.prefix_append_right_inj body).1 ht
    -- a proper part of the closing marker does not end with a slash
    have hlast : (body ++ u).getLast? = some '/' := by
      obtain ⟨v, hv⟩ := hends
      rw [← hv]
      simp [tagClose]
    by_cases hnil : u = []
    · rw [hnil, List.append_nil] at hends
      exact absurd hends (h body List.prefix_rfl)
    · rw [List.getLast?_append_of_ne_nil body hnil] at hlast
      have hslash : '/' ∈ u := List.mem_of_getLast? hlast
      obtain ⟨t, rfl, rfl | ⟨t, rfl, rfl | rfl⟩⟩ : ∃ t, u = '>' :: t ∧
          (t = [] ∨ ∃ t', t = '*' :: t' ∧ (t' = [] ∨ t' = ['/'])) := by
        simpa [tagClose, List.prefix_cons_iff, hnil] using hu
      · simp at hslash
      · simp at hslash
      · rfl

theorem stuck_readConditional {p : Place} {cs : List Char} {e : TagError}
    (h : readConditional p cs = .error e) : Stuck readConditional p cs e := by
  unfold readConditional at h
  cases hname : readName p (cs.dropWhile isSpace) with
  | error e' =>
      rw [hname] at h
      cases h
      rcases readName_eq_error hname with ⟨rfl, hchars⟩ | hmalformed
      · obtain ⟨lead, name, hname, hcs⟩ := exists_isName_of_spaces hchars
        refine .cutOff (['N'] ++ (' ' :: tagClose)) fun q =>
          readConditional_eq_ok_iff.2 ⟨lead, name, [], rfl, hname, firstEnd_tagClose, ?_⟩
        rw [← List.append_assoc, hcs, List.append_assoc]
        rfl
      · exact .malformed (.of_readName (fun _ _ => rfl) hmalformed)
  | ok nr =>
      obtain ⟨name, after⟩ := nr
      rw [hname] at h
      dsimp only [bind, Except.bind] at h
      split at h
      · cases h
      · next hnone =>
          cases h
          refine .cutOff tagClose fun q => readConditional_eq_ok_iff.2
            ⟨(cs.takeWhile isSpace).length, name, after, rfl, (readName_eq_ok_iff.1 hname).1,
              ?_, ?_⟩
          · cases cut_of_splitAtClose_eq_none hnone with
            | unclosed hunended => exact firstEnd_of_unended hunended
          · conv => lhs; rw [eq_append_of_readName hname]
            simp only [List.append_assoc, List.cons_append, List.append_nil]

/-- The place of a character in a text that stands at byte `pos`. -/
theorem faultAt_ofText (pos : Nat) (before after : List Char) (fault : TagFault) (c : Char) :
    (Place.ofText pos (before ++ c :: after)).faultAt fault c after =
      ⟨fault, Span.ofWidth (pos + byteLength before) c.utf8Size⟩ := by
  simp only [Place.faultAt, Place.ofText, Text.byteLength_append, TagError.mk.injEq, true_and]
  rw [← Nat.add_assoc, Nat.add_sub_cancel]

/-- How reading a tag fails, wherever it stands: the text is the beginning of a tag, or one of
its characters is in the way, and stays in the way. -/
inductive Faulty (pos : Nat) (cs : List Char) : TagError → Prop where
  | cutOff {more : List Char} {t : Tag} (h : t.Begins (cs ++ more) []) :
      Faulty pos cs ⟨.unterminated, pos, pos + byteLength cs⟩
  | malformed {fault : TagFault} {c : Char} {before after : List Char}
      (hcs : cs = before ++ c :: after) (hfault : fault.IsAt c)
      (h : ∀ more, read? pos (cs ++ more) =
        some (.error ⟨fault, Span.ofWidth (pos + byteLength before) c.utf8Size⟩)) :
      Faulty pos cs ⟨fault, Span.ofWidth (pos + byteLength before) c.utf8Size⟩

/-- What a reader says about the text behind an opener holds for the tag. -/
theorem Stuck.faulty {opener rest : List Char} {e : TagError} {pos : Nat}
    {reader : Place → List Char → Except TagError (Tag × List Char)}
    (hread : ∀ cs, read? pos (opener ++ cs) = some (reader (Place.ofText pos (opener ++ cs)) cs))
    (h : Stuck reader (Place.ofText pos (opener ++ rest)) rest e) :
    Faulty pos (opener ++ rest) e := by
  cases h with
  | @cutOff more t h =>
      have hread' : read? pos (opener ++ rest ++ more) = some (.ok (t, [])) := by
        rw [List.append_assoc, hread, h]
      exact .cutOff (read?_eq_ok_iff.1 hread')
  | malformed h =>
      cases h with
      | @intro fault c after before hcs hfault h =>
          have hrest : opener ++ rest = opener ++ before ++ c :: after := by
            rw [hcs, List.append_assoc]
          have hplace : (Place.ofText pos (opener ++ rest)).faultAt fault c after =
              ⟨fault, Span.ofWidth (pos + byteLength (opener ++ before)) c.utf8Size⟩ := by
            rw [hrest, faultAt_ofText]
          rw [hplace]
          refine .malformed hrest hfault fun more => ?_
          rw [List.append_assoc, hread, h, ← List.append_assoc, hrest, List.append_assoc,
            List.cons_append, faultAt_ofText]

theorem read?_conditional (pos : Nat) (cs : List Char) :
    read? pos (conditionalOpener ++ cs) =
      some (readConditional (Place.ofText pos (conditionalOpener ++ cs)) cs) := by
  unfold read?
  rw [List.isPrefixOf?_eq_some_iff_append_eq.2 rfl]

theorem read?_substitution (pos : Nat) (cs : List Char) :
    read? pos (substitutionOpener ++ cs) =
      some (readSubstitution (Place.ofText pos (substitutionOpener ++ cs)) cs) := by
  unfold read?
  rw [isPrefixOf?_eq_none_iff.2 (not_conditionalOpener_isPrefix cs)]
  dsimp only
  rw [List.isPrefixOf?_eq_some_iff_append_eq.2 rfl]

theorem faulty_of_read? {pos : Nat} {cs : List Char} {e : TagError}
    (h : read? pos cs = some (.error e)) : OpensTag cs ∧ Faulty pos cs e := by
  have hopen : OpensTag cs := by
    by_contra hopen
    rw [read?_eq_none_iff.2 hopen] at h
    cases h
  refine ⟨hopen, ?_⟩
  rcases hopen with ⟨rest, rfl⟩ | ⟨rest, rfl⟩
  · rw [read?_substitution] at h
    exact (stuck_readSubstitution (Option.some.inj h)).faulty (read?_substitution pos)
  · rw [read?_conditional] at h
    exact (stuck_readConditional (Option.some.inj h)).faulty (read?_conditional pos)

end Tag

/-! ## How far reading comes -/

/-- A text whose items have been read up to `rest`. -/
inductive LexesTo : List Char → List Item → List Char → Prop where
  | nil (cs : List Char) : LexesTo cs [] cs
  | cons {cs mid rest : List Char} {i : Item} {is : List Item} (hi : i.Begins cs mid)
      (h : LexesTo mid is rest) : LexesTo cs (i :: is) rest

namespace LexesTo

variable {cs rest : List Char} {is : List Item}

theorem source (h : LexesTo cs is rest) : is.flatMap Item.source ++ rest = cs := by
  induction h with
  | nil => rfl
  | cons hi _ ih => rw [List.flatMap_cons, List.append_assoc, ih, hi.source]

/-- What is written behind a text does not change how the text is read, up to a place that is not
yet its end. -/
theorem append (h : LexesTo cs is rest) (hne : rest ≠ []) (more : List Char) :
    LexesTo (cs ++ more) is (rest ++ more) := by
  induction h with
  | nil => exact .nil _
  | @cons cs mid rest i is hi h ih =>
      have hmid : mid ≠ [] := by
        rintro rfl
        exact hne (List.append_eq_nil_iff.1 h.source).2
      have hclosed : i.closed = true := by
        by_contra hopen
        exact hmid (hi.rest_eq_nil (by simpa using hopen))
      exact .cons (hi.append hclosed (fun _ => hmid) more) (ih hne)

/-- The rest of the text is scanned from where it stands. -/
theorem scan_eq (h : LexesTo cs is rest) (pos : Nat) :
    Item.scan pos cs =
      (Item.scan (pos + byteLength (is.flatMap Item.source)) rest).map (is ++ ·) := by
  induction h generalizing pos with
  | nil cs =>
      change Item.scan pos cs = (Item.scan pos cs).map fun js => js
      cases Item.scan pos cs with
      | error e => rfl
      | ok js => rfl
  | @cons cs mid rest i is hi h ih =>
      obtain ⟨c, cs, rfl⟩ := List.exists_cons_of_ne_nil hi.ne_nil
      rw [Item.scan_cons_of_read (Item.read_eq_ok_iff.2 hi), ih, List.flatMap_cons,
        Text.byteLength_append, Nat.add_assoc]
      cases Item.scan (pos + (byteLength i.source + byteLength (is.flatMap Item.source))) rest with
      | error e => rfl
      | ok js => rfl

theorem lexes {js : List Item} (h : LexesTo cs is rest) (hrest : Lexes rest js) :
    Lexes cs (is ++ js) := by
  induction h with
  | nil => exact hrest
  | cons hi _ ih => exact .cons hi (ih hrest)

end LexesTo

namespace Item

theorem read_eq_error_iff {pos : Nat} {c : Char} {cs : List Char} {e : TagError} :
    read pos c cs = .error e ↔ Tag.read? pos (c :: cs) = some (.error e) := by
  unfold read
  rcases Tag.read? pos (c :: cs) with _ | (e' | ⟨t, rest⟩)
  · simp
  · simp
  · simp

/-- Scanning fails where reading a tag does, behind the items that have been read. -/
theorem exists_of_scan_eq_error {pos : Nat} {cs : List Char} {e : TagError}
    (h : scan pos cs = .error e) :
    ∃ is rest, LexesTo cs is rest ∧
      Tag.read? (pos + byteLength (is.flatMap Item.source)) rest = some (.error e) := by
  fun_induction scan pos cs with
  | case1 => cases h
  | case2 pos c cs e' hread =>
      cases h
      exact ⟨[], c :: cs, .nil _, read_eq_error_iff.1 hread⟩
  | case3 pos c cs i rest hread e' hscan ih =>
      cases h
      obtain ⟨is, rest', hlexes, herror⟩ := ih hscan
      refine ⟨i :: is, rest', .cons (read_eq_ok_iff.1 hread) hlexes, ?_⟩
      rwa [List.flatMap_cons, Text.byteLength_append, ← Nat.add_assoc]
  | case4 => cases h

theorem scan_of_read?_eq_error {pos : Nat} {cs : List Char} {e : TagError}
    (h : Tag.read? pos cs = some (.error e)) : scan pos cs = .error e := by
  cases cs with
  | nil => cases h
  | cons c cs => exact scan_of_read_error (read_eq_error_iff.2 h)

end Item

namespace Template

/-- The tag at which scanning a text fails: what stands in front of it has been read, and its
opener is there, but it is not a tag. -/
def FailsAt (cs front rest : List Char) : Prop :=
  cs = front ++ rest ∧ (∃ is, LexesTo cs is rest) ∧ OpensTag rest ∧
    ∀ t more, ¬ Tag.Begins rest t more

/-- **A fault is `unterminated` exactly if the text can be completed.**  If a text cannot be
parsed, it is for a fault in a tag.  That fault is `unterminated` if and only if more text can be
written behind so that the whole parses, and then its span runs from the opener of the tag to the
end of the text.  With any other fault, every longer text has the same fault, with the same
character and span. -/
theorem unterminated_iff_completable {source : String} {e : RenderError}
    (h : parse source = .error e) :
    ∃ fault span, e = .tag ⟨fault, span⟩ ∧
      (fault = .unterminated → ∃ front rest, FailsAt source.toList front rest ∧
        span = ⟨byteLength front, byteLength source.toList⟩) ∧
      (fault = .unterminated ↔ ∃ more t, parse (source ++ more) = .ok t) ∧
      (fault ≠ .unterminated → ∀ more, parse (source ++ more) = .error e) := by
  obtain ⟨error, hscan, rfl⟩ := parse_eq_error_iff.1 h
  obtain ⟨is, rest, hlexes, hread⟩ := Item.exists_of_scan_eq_error hscan
  obtain ⟨hopen, hfaulty⟩ := Tag.faulty_of_read? hread
  have hne : rest ≠ [] := by
    rintro rfl
    cases hread
  have hsource := hlexes.source
  rw [Nat.zero_add] at hfaulty hread
  cases hfaulty with
  | @cutOff more t hbegins =>
      refine ⟨_, _, rfl, fun _ => ⟨is.flatMap Item.source, rest, ?_, ?_⟩, ?_, ?_⟩
      · refine ⟨hsource.symm, ⟨is, hlexes⟩, hopen, fun t' more' ht' => ?_⟩
        rw [Tag.read?_eq_ok_iff.2 ht'] at hread
        cases hread
      · rw [← hsource, Text.byteLength_append]
      · refine iff_of_true rfl ⟨String.ofList more, ⟨gather (is ++ [.tag t])⟩, ?_⟩
        refine parse_eq_ok_iff.2 ⟨_, ?_, rfl⟩
        rw [String.toList_append, String.toList_ofList]
        exact (hlexes.append hne more).lexes (.cons (.tag hbegins) .nil)
      · exact fun hfault => absurd rfl hfault
  | @malformed fault c before after hcs hfault hstays =>
      have hlong : ∀ more, parse (source ++ more) =
          .error (.tag ⟨fault, Span.ofWidth (byteLength (is.flatMap Item.source) +
            byteLength before) c.utf8Size⟩) := by
        intro more
        refine parse_eq_error_iff.2 ⟨_, ?_, rfl⟩
        rw [String.toList_append, (hlexes.append hne more.toList).scan_eq 0, Nat.zero_add,
          Item.scan_of_read?_eq_error (hstays more.toList)]
        rfl
      refine ⟨_, _, rfl, fun hfault' => absurd hfault' hfault.ne_unterminated, ?_, fun _ => hlong⟩
      refine iff_of_false hfault.ne_unterminated ?_
      rintro ⟨more, t, hparse⟩
      rw [hlong more] at hparse
      cases hparse

/-- A part of the closing marker can be completed, and a second word in a tag cannot be mended. -/
theorem unterminated_iff_completable_second_word :
    (parse "é/*<DOPING N >*" = .error (.tag ⟨.unterminated, 2, 16⟩) ∧
      ∃ more t, parse ("é/*<DOPING N >*" ++ more) = .ok t) ∧
      ∀ more, parse ("'/*<DOPING '/*<DOPING N  é" ++ more) =
        .error (.tag ⟨.expectedClose 'é', 25, 27⟩) := by
  have hcut : parse "é/*<DOPING N >*" = .error (.tag ⟨.unterminated, 2, 16⟩) := by decide +kernel
  have hword : parse "'/*<DOPING '/*<DOPING N  é" =
      .error (.tag ⟨.expectedClose 'é', 25, 27⟩) := by
    decide +kernel
  constructor
  · obtain ⟨fault, span, heq, -, hiff, -⟩ := unterminated_iff_completable hcut
    cases heq
    exact ⟨hcut, hiff.1 rfl⟩
  · obtain ⟨fault, span, heq, -, -, hstays⟩ := unterminated_iff_completable hword
    cases heq
    exact hstays (by simp)

end Template
end Loopsmith
