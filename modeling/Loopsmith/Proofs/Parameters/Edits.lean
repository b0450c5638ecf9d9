import Loopsmith.Proofs.Parameters.RoundTrip

/-!
# Parameters that are built up

A list of parameters comes about in two ways: a text is read, which replaces the list, or a pair
is inserted into it.  Both can be refused, and then nothing changes.  `edited` is the list that
any number of such edits leave behind.

Reading and inserting let the same pairs through, though they look for different things: the
reader cuts a text at commas and trims what it finds, while `insert` has nothing to cut and asks
whether a comma or a blank would be in the way.  So the lists that edits lead to are exactly the
well-formed ones (`exists_edited_eq_iff`), and what `RoundTrip` says of those holds of every list
there is.  The written form is then a canonical form: it reads back, it belongs to one list
only, and writing what was read from it gives it again.
-/

namespace Loopsmith
namespace Parameters

/-! ## What a value may be -/

/-- A value may be anything without a comma that does not begin or end with a blank. -/
theorem isValue_iff {value : List Char} :
    isValue value = true ↔ ',' ∉ value ∧
      (∀ c ∈ value.head?, Text.isBlank c = false) ∧
      ∀ c ∈ value.getLast?, Text.isBlank c = false := by
  rw [← Text.trim_eq_self_iff, isValue, Bool.and_eq_true, beq_iff_eq]
  simp

/-- A pair of a name and a value is set, and any other pair is refused and leaves the list alone. -/
theorem insert_cases (ps : Parameters) (name value : String) :
    ((IsName name ∧ isValue value.toList = true) ∧
      ps.insert name value = (.ok (ps.get? name), ps.set name value)) ∨
    (¬ (IsName name ∧ isValue value.toList = true) ∧
      ∃ e, ps.insert name value = (.error e, ps)) := by
  unfold insert
  dsimp only
  split
  · next hempty => exact .inr ⟨fun h => h.1.1 (List.isEmpty_iff.1 hempty), _, rfl⟩
  · next hempty =>
      split
      · next e hname =>
          refine .inr ⟨fun h => ?_, e, rfl⟩
          rw [checkName_eq_ok_iff.2 h.1.2] at hname
          cases hname
      · next hname =>
          have hgood : IsName name :=
            ⟨mt List.isEmpty_iff.2 hempty, checkName_eq_ok_iff.1 hname⟩
          split
          · next hvalue => exact .inl ⟨⟨hgood, hvalue⟩, rfl⟩
          · next hvalue => exact .inr ⟨fun h => hvalue h.2, _, rfl⟩

theorem insert_of_isName {name value : String} (ps : Parameters)
    (h : IsName name ∧ isValue value.toList = true) :
    ps.insert name value = (.ok (ps.get? name), ps.set name value) :=
  (insert_cases ps name value).elim And.right fun hbad => absurd h hbad.1

/-! ## Edits -/

/-- Something that is done to a list of parameters. -/
inductive Edit where
  /-- A text is read in place of the list. -/
  | read (text : String)
  | insert (name value : String)
  deriving DecidableEq, Repr

/-- The answer to an edit, and the list after it.  A text that cannot be read replaces nothing. -/
def Edit.apply (ps : Parameters) : Edit → Except ParameterError (Option String) × Parameters
  | read text =>
      match parse text with
      | .ok ps' => (.ok none, ps')
      | .error e => (.error e, ps)
  | insert name value => ps.insert name value

/-- The list that edits lead to. -/
def editedFrom (ps : Parameters) (edits : List Edit) : Parameters :=
  edits.foldl (fun ps e => (e.apply ps).2) ps

/-- The list that edits lead to, from the empty one. -/
def edited (edits : List Edit) : Parameters :=
  empty.editedFrom edits

theorem WellFormed.apply {ps : Parameters} (h : ps.WellFormed) (e : Edit) :
    (e.apply ps).2.WellFormed := by
  cases e with
  | read text =>
      simp only [Edit.apply]
      split
      · next hparse => exact wellFormed_of_parse hparse
      · exact h
  | insert name value =>
      rw [Edit.apply]
      rcases insert_cases ps name value with ⟨⟨hname, hvalue⟩, htaken⟩ | ⟨-, e, hrefused⟩
      · rw [htaken]
        exact h.set hname hvalue
      · rw [hrefused]
        exact h

/-- Edits lead to well-formed lists, refused ones among them or not. -/
theorem wellFormed_edited (edits : List Edit) : (edited edits).WellFormed := by
  have hfold (ps : Parameters) (h : ps.WellFormed) : (ps.editedFrom edits).WellFormed := by
    induction edits generalizing ps with
    | nil => exact h
    | cons e edits ih => exact ih (e.apply ps).2 (h.apply e)
  exact hfold empty .empty

/-- **Edits lead to the well-formed lists and to no others.** -/
theorem exists_edited_eq_iff {ps : Parameters} : (∃ edits, edited edits = ps) ↔ ps.WellFormed := by
  constructor
  · rintro ⟨edits, rfl⟩
    exact wellFormed_edited edits
  · intro h
    refine ⟨[.read ps.serialize], ?_⟩
    simp [edited, editedFrom, Edit.apply, parse_serialize h]

/-- Inserting pairs that are let through sets them in order. -/
theorem edited_insert {pairs : List (String × String)}
    (h : ∀ p ∈ pairs, IsName p.1 ∧ isValue p.2.toList = true) :
    edited (pairs.map fun p => .insert p.1 p.2) = empty.setAll pairs := by
  have hfold (ps : Parameters) :
      ps.editedFrom (pairs.map fun p => .insert p.1 p.2) = ps.setAll pairs := by
    induction pairs generalizing ps with
    | nil => rfl
    | cons p pairs ih =>
        have hinsert := insert_of_isName ps (h p List.mem_cons_self)
        rw [List.map_cons, editedFrom, List.foldl_cons, Edit.apply, hinsert]
        exact ih (fun q hq => h q (List.mem_cons_of_mem _ hq)) (ps.set p.1 p.2)
  exact hfold empty

/-! ## The canonical form -/

/-- **The written form is canonical.**

* Whatever edits a list has been through, it is read back from its written form, the same pairs in
  the same order.
* Lists that edits lead to are told apart by their written forms.
* What was read from a text is read again from its written form, and written again the same.
* Edits lead to all lists of pairs with different names in which a value has no comma and no blank
  at either end, and to no others: values may be empty, and hold colons, blanks between other
  characters and any characters whatever.
* Blanks around names and values make no difference to what is read: fields that are spelled in
  any such way read as if their pairs were inserted one after another. -/
theorem written_form_canonical :
    (∀ edits : List Edit, parse (edited edits).serialize = .ok (edited edits)) ∧
    (∀ edits edits' : List Edit,
      (edited edits).serialize = (edited edits').serialize → edited edits = edited edits') ∧
    (∀ (text : String) (ps : Parameters), parse text = .ok ps →
      parse ps.serialize = .ok ps ∧ (parse ps.serialize).map serialize = .ok ps.serialize) ∧
    (∀ pairs : List (String × String), (∃ edits, edited edits = ⟨pairs⟩) ↔
      (pairs.map Prod.fst).Nodup ∧ ∀ p ∈ pairs, IsName p.1 ∧ ',' ∉ p.2.toList ∧
        (∀ c ∈ p.2.toList.head?, Text.isBlank c = false) ∧
        ∀ c ∈ p.2.toList.getLast?, Text.isBlank c = false) ∧
    (∀ spellings : List Spelling, spellings ≠ [] → (∀ p ∈ spellings, p.Proper) →
      parse (String.ofList ([','].intercalate (spellings.map Spelling.field))) =
        .ok (edited (spellings.map fun p => .insert p.name p.value))) := by
  refine ⟨?_, ?_, ?_, ?_, ?_⟩
  · intro edits
    exact parse_serialize (wellFormed_edited edits)
  · intro edits edits' h
    exact eq_of_serialize_eq (wellFormed_edited edits) (wellFormed_edited edits') h
  · intro text ps h
    have hread := parse_serialize (wellFormed_of_parse h)
    refine ⟨hread, ?_⟩
    rw [hread]
    rfl
  · intro pairs
    rw [exists_edited_eq_iff]
    constructor
    · intro h
      exact ⟨h.nodup, fun p hp => ⟨h.names p hp, isValue_iff.1 (h.values p hp)⟩⟩
    · rintro ⟨hnodup, hpairs⟩
      exact ⟨fun p hp => (hpairs p hp).1, fun p hp => isValue_iff.2 (hpairs p hp).2, hnodup⟩
  · intro spellings hne hproper
    have hpairs : ∀ p ∈ spellings.map fun p => (p.name, p.value),
        IsName p.1 ∧ isValue p.2.toList = true := by
      intro p hp
      obtain ⟨q, hq, rfl⟩ := List.mem_map.1 hp
      exact ⟨(hproper q hq).name, (hproper q hq).value⟩
    have hedited := edited_insert hpairs
    rw [List.map_map] at hedited
    rw [parse_spellings hne hproper, ← hedited]
    rfl

/-- Edits with a value with colons, an empty one, two that are refused, and one with blanks inside
and a letter outside ASCII that takes the place of the first; and a text with blanks of four
kinds. -/
theorem written_form_canonical_after_edits :
    edited [.insert "T" "std::size_t", .insert "E" "", .insert "A" "1,B:2", .read "A:1,B",
      .insert "T" "größe in m"] = ⟨[("T", "größe in m"), ("E", "")]⟩ ∧
    parse "T:größe in m,E:" = .ok ⟨[("T", "größe in m"), ("E", "")]⟩ ∧
    parse "\u2003N :\u3000a : b\t" = .ok ⟨[("N", "a : b")]⟩ := by
  have hedited : edited [.insert "T" "std::size_t", .insert "E" "", .insert "A" "1,B:2",
      .read "A:1,B", .insert "T" "größe in m"] = ⟨[("T", "größe in m"), ("E", "")]⟩ := by
    decide
  have hwritten := written_form_canonical.1 [.insert "T" "std::size_t", .insert "E" "",
    .insert "A" "1,B:2", .read "A:1,B", .insert "T" "größe in m"]
  rw [hedited] at hwritten
  have hproper : ∀ p ∈ [Spelling.mk "N" "a : b" ['\u2003'] [' '] ['\u3000'] ['\t']], p.Proper := by
    refine List.forall_mem_singleton.2 ⟨⟨by decide, ?_⟩, by decide, ?_, ?_, ?_, ?_⟩
    · have hname : "N".toList = ['N'] := by decide
      rw [hname]
      exact List.forall_mem_singleton.2 (by decide)
    all_goals exact List.forall_mem_singleton.2 (by decide)
  have hspelled := written_form_canonical.2.2.2.2 _ (List.cons_ne_nil _ _) hproper
  have hpair : edited [.insert "N" "a : b"] = ⟨[("N", "a : b")]⟩ := by decide
  exact ⟨hedited, hwritten, hspelled.trans (congrArg Except.ok hpair)⟩

end Parameters
end Loopsmith
