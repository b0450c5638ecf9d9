import Loopsmith.Proofs.Parameters.Edits

/-!
# Inserting a pair

`insert` looks at a name and a value that were never part of a text, and yet it has to let through
just the pairs that a text could have given.  Were it to take one more, two different lists
would have the same written form; were it to take one less, a list that was read could not be
built up by hand.

A pair that is taken changes the value of one name and nothing else, and the names keep their
order (`get?_set`, `names_set`).  A pair that is refused changes nothing.
-/

namespace Loopsmith

/-- Names are of the class `[A-Za-z0-9_]+`. -/
theorem isName_iff {name : String} :
    IsName name ↔ name ≠ "" ∧ ∀ c ∈ name.toList,
      ('A'.toNat ≤ c.toNat ∧ c.toNat ≤ 'Z'.toNat) ∨ ('a'.toNat ≤ c.toNat ∧ c.toNat ≤ 'z'.toNat) ∨
        ('0'.toNat ≤ c.toNat ∧ c.toNat ≤ '9'.toNat) ∨ c = '_' := by
  have hchar (c : Char) : isNameChar c = true ↔
      ('A'.toNat ≤ c.toNat ∧ c.toNat ≤ 'Z'.toNat) ∨ ('a'.toNat ≤ c.toNat ∧ c.toNat ≤ 'z'.toNat) ∨
        ('0'.toNat ≤ c.toNat ∧ c.toNat ≤ '9'.toNat) ∨ c = '_' := by
    change (((decide ('A'.val ≤ c.val ∧ c.val ≤ 'Z'.val) ||
      (decide ('a'.val ≤ c.val) && decide (c.val ≤ 'z'.val))) ||
      (decide ('0'.val ≤ c.val) && decide (c.val ≤ '9'.val))) || c == '_') = true ↔ _
    simp only [Bool.or_eq_true, Bool.and_eq_true, decide_eq_true_eq, UInt32.le_iff_toNat_le,
      beq_iff_eq, or_assoc]
    rfl
  simp only [IsName, hchar, ne_eq, String.toList_eq_nil_iff]

namespace Parameters

/-! ## The values of a list -/

theorem lookup_setPair (name value : String) (pairs : List (String × String)) (other : String) :
    (setPair name value pairs).lookup other =
      if other = name then some value else pairs.lookup other := by
  induction pairs with
  | nil =>
      rw [setPair, List.lookup_cons, List.lookup_nil]
      by_cases h : other = name
      · rw [if_pos h, h, beq_self_eq_true]
      · rw [if_neg h, beq_eq_false_iff_ne.2 h]
  | cons p pairs ih =>
      rw [setPair]
      by_cases hp : p.1 = name
      · rw [if_pos hp, List.lookup_cons, List.lookup_cons, hp]
        by_cases h : other = name
        · rw [if_pos h, h, beq_self_eq_true]
        · rw [if_neg h, beq_eq_false_iff_ne.2 h]
      · rw [if_neg hp, List.lookup_cons, List.lookup_cons, ih]
        by_cases h : other = p.1
        · have hne : other ≠ name := fun heq => hp (h.symm.trans heq)
          rw [if_neg hne, if_neg hne]
        · rw [beq_eq_false_iff_ne.2 h]

/-- Setting a pair gives one name its value. -/
theorem get?_set (ps : Parameters) (name value other : String) :
    (ps.set name value).get? other = if other = name then some value else ps.get? other :=
  lookup_setPair name value ps.pairs other

/-! ## Pairs that can be read -/

/-- A text can give the pairs of a name and a value, and no others. -/
theorem exists_parse_mem_iff {name value : String} :
    (∃ text qs, parse text = .ok qs ∧ (name, value) ∈ qs.pairs) ↔
      IsName name ∧ isValue value.toList = true := by
  constructor
  · rintro ⟨text, qs, hparse, hmem⟩
    have hqs := wellFormed_of_parse hparse
    exact ⟨hqs.names (name, value) hmem, hqs.values (name, value) hmem⟩
  · rintro ⟨hname, hvalue⟩
    -- the written form of the list with this one pair
    have hset := WellFormed.empty.set hname hvalue
    exact ⟨_, _, parse_serialize hset, List.mem_singleton.2 rfl⟩

theorem exists_insert_iff {ps : Parameters} {name value : String} :
    (∃ old, (ps.insert name value).1 = .ok old) ↔ IsName name ∧ isValue value.toList = true := by
  rcases insert_cases ps name value with ⟨hgood, htaken⟩ | ⟨hbad, e, hrefused⟩
  · rw [htaken]
    exact iff_of_true ⟨_, rfl⟩ hgood
  · rw [hrefused]
    refine iff_of_false ?_ hbad
    rintro ⟨old, h⟩
    cases h

/-- **Inserting takes exactly what reading gives, and all of it or nothing.**

* A pair is taken if and only if there is a text from which it is read.
* A pair that is refused leaves the list as it was.
* A pair that is taken is there afterwards, and the old value of its name is the answer.  The other
  names keep their values, the names that were there keep their order, and a new name goes last.
* In every list that comes about by reading and inserting, the names are different from each other
  and of the class `[A-Za-z0-9_]+`, and no value has a comma in it or a blank at an end. -/
theorem insert_takes_what_is_read :
    (∀ (ps : Parameters) (name value : String),
      (∃ old, (ps.insert name value).1 = .ok old) ↔
        ∃ text qs, parse text = .ok qs ∧ (name, value) ∈ qs.pairs) ∧
    (∀ (ps ps' : Parameters) (name value : String) (e : ParameterError),
      ps.insert name value = (.error e, ps') → ps' = ps) ∧
    (∀ (ps ps' : Parameters) (name value : String) (old : Option String),
      ps.insert name value = (.ok old, ps') → old = ps.get? name ∧
        ps'.get? name = some value ∧ (∀ other, other ≠ name → ps'.get? other = ps.get? other) ∧
        ps'.names = if name ∈ ps.names then ps.names else ps.names ++ [name]) ∧
    ∀ edits : List Edit, (edited edits).names.Nodup ∧ ∀ p ∈ (edited edits).pairs,
      (p.1 ≠ "" ∧ ∀ c ∈ p.1.toList,
        ('A'.toNat ≤ c.toNat ∧ c.toNat ≤ 'Z'.toNat) ∨ ('a'.toNat ≤ c.toNat ∧ c.toNat ≤ 'z'.toNat) ∨
          ('0'.toNat ≤ c.toNat ∧ c.toNat ≤ '9'.toNat) ∨ c = '_') ∧
      ',' ∉ p.2.toList ∧ (∀ c ∈ p.2.toList.head?, Text.isBlank c = false) ∧
        ∀ c ∈ p.2.toList.getLast?, Text.isBlank c = false := by
  refine ⟨?_, ?_, ?_, ?_⟩
  · intro ps name value
    exact exists_insert_iff.trans exists_parse_mem_iff.symm
  · intro ps ps' name value e h
    rcases insert_cases ps name value with ⟨-, htaken⟩ | ⟨-, e', hrefused⟩
    · rw [htaken] at h
      cases h
    · rw [hrefused] at h
      cases h
      rfl
  · intro ps ps' name value old h
    obtain ⟨rfl, rfl⟩ : old = ps.get? name ∧ ps' = ps.set name value := by
      rcases insert_cases ps name value with ⟨-, htaken⟩ | ⟨-, e, hrefused⟩
      · rw [htaken] at h
        cases h
        exact ⟨rfl, rfl⟩
      · rw [hrefused] at h
        cases h
    refine ⟨rfl, ?_, ?_, names_set ps name value⟩
    · rw [get?_set, if_pos rfl]
    · intro other hother
      rw [get?_set, if_neg hother]
  · intro edits
    have hedited := wellFormed_edited edits
    refine ⟨hedited.nodup, fun p hp => ?_⟩
    exact ⟨isName_iff.1 (hedited.names p hp), isValue_iff.1 (hedited.values p hp)⟩

/-- A value with a colon, a blank and a letter outside ASCII takes the place of another one; a value
that would be read as two fields is refused. -/
theorem insert_takes_what_is_read_in_place :
    (∃ ps', insert ⟨[("A", "1"), ("B", "2")]⟩ "A" "a : é" = (.ok (some "1"), ps') ∧
      ps'.get? "A" = some "a : é" ∧ ps'.get? "B" = some "2" ∧ ps'.names = ["A", "B"]) ∧
    (∃ text qs, parse text = .ok qs ∧ ("A", "a : é") ∈ qs.pairs) ∧
    (insert ⟨[("A", "1"), ("B", "2")]⟩ "A" "1,C:2").1 =
      .error (.invalidValue "A" "1,C:2" ⟨0, 0⟩) ∧
    (insert ⟨[("A", "1"), ("B", "2")]⟩ "A" "1,C:2").2 = ⟨[("A", "1"), ("B", "2")]⟩ := by
  obtain ⟨htaken, hrefused, hchange, -⟩ := insert_takes_what_is_read
  have hinsert : insert ⟨[("A", "1"), ("B", "2")]⟩ "A" "a : é" =
      (.ok (some "1"), ⟨[("A", "a : é"), ("B", "2")]⟩) := by
    decide
  have herror : (insert ⟨[("A", "1"), ("B", "2")]⟩ "A" "1,C:2").1 =
      .error (.invalidValue "A" "1,C:2" ⟨0, 0⟩) := by
    decide
  obtain ⟨-, hvalue, hothers, hnames⟩ := hchange _ _ _ _ _ hinsert
  refine ⟨⟨_, hinsert, hvalue, hothers "B" (by decide), hnames⟩, ?_, herror, ?_⟩
  · exact (htaken _ "A" "a : é").1 ⟨_, congrArg Prod.fst hinsert⟩
  · exact hrefused _ _ _ _ _ (Prod.ext herror rfl)

end Parameters
end Loopsmith
