import Loopsmith.Parameters.Text
import Loopsmith.Proofs.Text.Fields

/-!
# Writing parameters and reading them back

Two texts can read as the same parameters, but parameters have one written form, and reading it
gives them back.  This is what a key relies on, which keeps the written form only.

The round trip does not hold of every list of pairs: a value with a comma in it would be
read as two fields, and a repeated name would be read once.  It holds of the lists that are
`WellFormed`, with names that are names, values that stand for themselves, and no name twice.
Those are the ones that reading produces (`wellFormed_of_parse`), so on them `serialize` is
injective.

The written form is one of many ways to spell a list.  A text may put blanks around every name and
every value, and `parse_spellings` says what is read from any text of that kind; the written form
is the case in which there are none.
-/

namespace Loopsmith
namespace Parameters

/-! ## Setting a pair -/

theorem mem_setPair {name value : String} {ps : List (String × String)} {p : String × String}
    (h : p ∈ setPair name value ps) : p = (name, value) ∨ p ∈ ps := by
  induction ps with
  | nil => exact .inl (List.mem_singleton.1 h)
  | cons q ps ih =>
      rw [setPair] at h
      split at h
      · next hq =>
          rcases List.mem_cons.1 h with rfl | h
          · exact .inl (by rw [hq])
          · exact .inr (List.mem_cons_of_mem _ h)
      · rcases List.mem_cons.1 h with rfl | h
        · exact .inr List.mem_cons_self
        · rcases ih h with h | h
          · exact .inl h
          · exact .inr (List.mem_cons_of_mem _ h)

/-- A new name goes to the end. -/
theorem setPair_of_not_mem {name value : String} {ps : List (String × String)}
    (h : name ∉ ps.map Prod.fst) : setPair name value ps = ps ++ [(name, value)] := by
  induction ps with
  | nil => rfl
  | cons q ps ih =>
      rw [List.map_cons, List.mem_cons, not_or] at h
      rw [setPair, if_neg (fun hq => h.1 hq.symm), ih h.2, List.cons_append]

/-- A name that is there keeps its place. -/
theorem map_fst_setPair_of_mem {name value : String} {ps : List (String × String)}
    (h : name ∈ ps.map Prod.fst) : (setPair name value ps).map Prod.fst = ps.map Prod.fst := by
  induction ps with
  | nil => simp at h
  | cons q ps ih =>
      rw [setPair]
      split
      · rfl
      · next hq =>
          rw [List.map_cons, List.mem_cons] at h
          rcases h with h | h
          · exact absurd h.symm hq
          · rw [List.map_cons, List.map_cons, ih h]

/-- The names in order. -/
def names (ps : Parameters) : List String :=
  ps.pairs.map Prod.fst

/-- Setting a pair adds its name at the end if it is new. -/
theorem names_set (ps : Parameters) (name value : String) :
    (ps.set name value).names = if name ∈ ps.names then ps.names else ps.names ++ [name] := by
  split
  · next hmem => exact map_fst_setPair_of_mem hmem
  · next hmem =>
      rw [names, set, setPair_of_not_mem hmem, List.map_append]
      rfl

theorem nodup_names_set {ps : Parameters} (h : ps.names.Nodup) (name value : String) :
    (ps.set name value).names.Nodup := by
  rw [names_set]
  split
  · exact h
  · next hmem =>
      refine List.nodup_append.2 ⟨h, by simp, ?_⟩
      rintro a ha b hb rfl
      rw [List.mem_singleton.1 hb] at ha
      exact hmem ha

/-! ## Well-formed parameters -/

/-- Parameters that reading could have produced. -/
structure WellFormed (ps : Parameters) : Prop where
  names : ∀ p ∈ ps.pairs, IsName p.1
  values : ∀ p ∈ ps.pairs, isValue p.2.toList = true
  nodup : (ps.pairs.map Prod.fst).Nodup

theorem WellFormed.empty : WellFormed empty :=
  ⟨by simp [Parameters.empty], by simp [Parameters.empty], by simp [Parameters.empty]⟩

theorem WellFormed.set {ps : Parameters} (h : ps.WellFormed) {name value : String}
    (hname : IsName name) (hvalue : isValue value.toList = true) :
    (ps.set name value).WellFormed := by
  refine ⟨?_, ?_, ?_⟩
  · intro p hp
    rcases mem_setPair hp with rfl | hp
    · exact hname
    · exact h.names p hp
  · intro p hp
    rcases mem_setPair hp with rfl | hp
    · exact hvalue
    · exact h.values p hp
  · exact nodup_names_set h.nodup name value

/-! ## Reading gives well-formed parameters -/

theorem eq_append_of_splitPair {cs name value : List Char}
    (h : splitPair cs = some (name, value)) : cs = name ++ ':' :: value := by
  induction cs generalizing name with
  | nil => simp [splitPair] at h
  | cons c cs ih =>
      rw [splitPair] at h
      split at h
      · next hc =>
          cases h
          rw [eq_of_beq hc, List.nil_append]
      · obtain ⟨⟨n, v⟩, hn, heq⟩ := Option.map_eq_some_iff.1 h
        cases heq
        rw [ih hn, List.cons_append]

theorem checkName_eq_ok_iff {name : List Char} {span : Span} :
    checkName name span = .ok () ↔ ∀ c ∈ name, isNameChar c = true := by
  unfold checkName
  cases hf : name.find? (fun c => !isNameChar c) with
  | none =>
      have hall := List.find?_eq_none.1 hf
      refine ⟨fun _ c hc => by simpa using hall c hc, fun _ => rfl⟩
  | some c =>
      have hc := List.find?_some hf
      refine ⟨fun h => (by cases h), fun h => ?_⟩
      rw [h c (List.mem_of_find?_eq_some hf)] at hc
      cases hc

/-- A field without commas that can be read gives a name and a value. -/
theorem isName_and_isValue_of_readField {field : List Char} {span : Span} {name value : String}
    (h : readField field span = .ok (name, value)) (hcomma : ',' ∉ field) :
    IsName name ∧ isValue value.toList = true := by
  unfold readField at h
  dsimp only at h
  split at h
  · cases h
  · cases hs : splitPair field with
    | none => rw [hs] at h; cases h
    | some nv =>
        obtain ⟨n, v⟩ := nv
        rw [hs] at h
        dsimp only at h
        split at h
        · cases h
        · next hne =>
            cases hn : checkName (Text.trim n) span with
            | error e => rw [hn] at h; cases h
            | ok u =>
                rw [hn] at h
                cases h
                refine ⟨⟨?_, ?_⟩, ?_⟩
                · simpa using hne
                · rw [String.toList_ofList]
                  exact checkName_eq_ok_iff.1 hn
                · rw [String.toList_ofList, isValue, Text.trim_trim, beq_self_eq_true, Bool.and_true]
                  have hv : ',' ∉ v := by
                    rw [eq_append_of_splitPair hs] at hcomma
                    exact fun hm => hcomma (by simp [hm])
                  simpa using fun hm => hv ((Text.trim_infix v).subset hm)

theorem wellFormed_of_readFields {ps ps' : Parameters} {pos : Nat} {fields : List (List Char)}
    (h : readFields ps pos fields = .ok ps') (hps : ps.WellFormed)
    (hcomma : ∀ f ∈ fields, ',' ∉ f) : ps'.WellFormed := by
  induction fields generalizing ps pos with
  | nil =>
      cases h
      exact hps
  | cons f fields ih =>
      rw [readFields] at h
      split at h
      · cases h
      · next name value hf =>
          obtain ⟨hname, hvalue⟩ := isName_and_isValue_of_readField hf (hcomma f List.mem_cons_self)
          exact ih h (hps.set hname hvalue) fun g hg => hcomma g (List.mem_cons_of_mem _ hg)

/-- **What was read is well-formed.** -/
theorem wellFormed_of_parse {text : String} {ps : Parameters} (h : parse text = .ok ps) :
    ps.WellFormed := by
  unfold parse ofChars? at h
  split at h
  · cases h
    exact .empty
  · exact wellFormed_of_readFields h .empty fun f hf => Text.not_mem_of_mem_splitOn hf

/-! ## The written form reads back -/

theorem splitPair_append {name value : List Char} (h : ':' ∉ name) :
    splitPair (name ++ ':' :: value) = some (name, value) := by
  induction name with
  | nil => rfl
  | cons c name ih =>
      rw [List.mem_cons, not_or] at h
      have hc : (c == ':') = false := by simpa using fun hc : c = ':' => h.1 hc.symm
      rw [List.cons_append, splitPair, hc, ih h.2]
      rfl

/-- A pair as a text may spell it, with blanks around its name and its value. -/
structure Spelling where
  name : String
  value : String
  beforeName : List Char := []
  afterName : List Char := []
  beforeValue : List Char := []
  afterValue : List Char := []

namespace Spelling

/-- The field that a text has for the pair. -/
def field (p : Spelling) : List Char :=
  (p.beforeName ++ p.name.toList ++ p.afterName) ++
    ':' :: (p.beforeValue ++ p.value.toList ++ p.afterValue)

/-- The pair is one that a list can hold, and what stands around it is blank. -/
structure Proper (p : Spelling) : Prop where
  name : IsName p.name
  value : isValue p.value.toList = true
  beforeName : ∀ c ∈ p.beforeName, Text.isBlank c = true
  afterName : ∀ c ∈ p.afterName, Text.isBlank c = true
  beforeValue : ∀ c ∈ p.beforeValue, Text.isBlank c = true
  afterValue : ∀ c ∈ p.afterValue, Text.isBlank c = true

/-- The spelling without blanks. -/
def plain (p : String × String) : Spelling :=
  { name := p.1, value := p.2 }

theorem field_plain (p : String × String) : (plain p).field = writePair p := by
  simp [field, plain, writePair]

theorem Proper.plain {p : String × String} (hname : IsName p.1)
    (hvalue : isValue p.2.toList = true) : (plain p).Proper :=
  ⟨hname, hvalue, by simp [Spelling.plain], by simp [Spelling.plain], by simp [Spelling.plain],
    by simp [Spelling.plain]⟩

theorem Proper.exists_mem_field {p : Spelling} (h : p.Proper) :
    ∃ c ∈ p.field, Text.isBlank c = false := by
  obtain ⟨c, hc⟩ := List.exists_mem_of_ne_nil _ h.name.1
  exact ⟨c, by simp [field, hc], not_isBlank_of_isNameChar (h.name.2 c hc)⟩

/-- However a pair is spelled, it is read. -/
theorem Proper.readField_eq {p : Spelling} (h : p.Proper) (span : Span) :
    readField p.field span = .ok (p.name, p.value) := by
  obtain ⟨c, hc, hblank⟩ := h.exists_mem_field
  have hshown : Text.trim p.field ≠ [] := Text.trim_ne_nil hc hblank
  have hcolon : ':' ∉ p.beforeName ++ p.name.toList ++ p.afterName := by
    have hbefore : ':' ∉ p.beforeName := fun hm => absurd (h.beforeName _ hm) (by decide)
    have hafter : ':' ∉ p.afterName := fun hm => absurd (h.afterName _ hm) (by decide)
    simp [hbefore, hafter, h.name.not_mem (d := ':') (by decide)]
  have hname : Text.trim (p.beforeName ++ p.name.toList ++ p.afterName) = p.name.toList :=
    Text.trim_padded h.beforeName h.afterName
      (Text.trim_eq_self_of_forall fun c hc => not_isBlank_of_isNameChar (h.name.2 c hc))
  have hvalue : Text.trim (p.beforeValue ++ p.value.toList ++ p.afterValue) = p.value.toList := by
    have hself := h.value
    rw [isValue, Bool.and_eq_true] at hself
    exact Text.trim_padded h.beforeValue h.afterValue (eq_of_beq hself.2)
  have hsplit : splitPair p.field = some (p.beforeName ++ p.name.toList ++ p.afterName,
      p.beforeValue ++ p.value.toList ++ p.afterValue) := splitPair_append hcolon
  unfold readField
  simp only [List.isEmpty_iff, hshown, if_false, hsplit, hname, h.name.1,
    checkName_eq_ok_iff.2 h.name.2, hvalue, String.ofList_toList]

theorem Proper.not_mem_field {p : Spelling} (h : p.Proper) : ',' ∉ p.field := by
  have hblank : Text.isBlank ',' = false := by decide
  have hb {b : List Char} (hb : ∀ c ∈ b, Text.isBlank c = true) : ',' ∉ b := by
    intro hm
    rw [hb _ hm] at hblank
    cases hblank
  have hvalue := h.value
  rw [isValue, Bool.and_eq_true] at hvalue
  have hv : ',' ∉ p.value.toList := by simpa using hvalue.1
  have hn : ',' ∉ p.name.toList := h.name.not_mem (by decide)
  simp [field, hb h.beforeName, hb h.afterName, hb h.beforeValue, hb h.afterValue, hv, hn]

end Spelling

/-- Gives names their values, one pair after another. -/
def setAll (ps : Parameters) (pairs : List (String × String)) : Parameters :=
  pairs.foldl (fun ps p => ps.set p.1 p.2) ps

/-- Reading fields sets their pairs in order. -/
theorem readFields_map_field {spellings : List Spelling} (h : ∀ p ∈ spellings, p.Proper)
    (ps : Parameters) (pos : Nat) :
    readFields ps pos (spellings.map Spelling.field) =
      .ok (ps.setAll (spellings.map fun p => (p.name, p.value))) := by
  induction spellings generalizing ps pos with
  | nil => rfl
  | cons p spellings ih =>
      rw [List.map_cons, readFields, (h p List.mem_cons_self).readField_eq]
      exact ih (fun q hq => h q (List.mem_cons_of_mem _ hq)) _ _

/-- **However pairs are spelled, reading them sets them in order.** -/
theorem parse_spellings {spellings : List Spelling} (hne : spellings ≠ [])
    (h : ∀ p ∈ spellings, p.Proper) :
    parse (String.ofList ([','].intercalate (spellings.map Spelling.field))) =
      .ok (empty.setAll (spellings.map fun p => (p.name, p.value))) := by
  have hsplit : Text.splitOn ',' ([','].intercalate (spellings.map Spelling.field)) =
      spellings.map Spelling.field := by
    refine Text.splitOn_intercalate (by simpa using hne) ?_
    intro f hf
    obtain ⟨p, hp, rfl⟩ := List.mem_map.1 hf
    exact (h p hp).not_mem_field
  have hblank : (Text.trim ([','].intercalate (spellings.map Spelling.field))).isEmpty = false := by
    obtain ⟨p, rest, rfl⟩ := List.exists_cons_of_ne_nil hne
    obtain ⟨c, hc, hnb⟩ := (h p List.mem_cons_self).exists_mem_field
    have hmem : c ∈ [','].intercalate ((p :: rest).map Spelling.field) := by
      cases rest <;> simp [List.intercalate_cons_cons, hc]
    simpa using Text.trim_ne_nil hmem hnb
  rw [parse, String.toList_ofList, ofChars?, hblank, if_neg Bool.false_ne_true, hsplit]
  exact readFields_map_field h empty 0

/-- New names go to the end, in order. -/
theorem setAll_of_nodup (done : List (String × String)) {todo : List (String × String)}
    (h : ((done ++ todo).map Prod.fst).Nodup) : setAll ⟨done⟩ todo = ⟨done ++ todo⟩ := by
  induction todo generalizing done with
  | nil => rw [List.append_nil]; rfl
  | cons p todo ih =>
      have hnew : p.1 ∉ done.map Prod.fst := by
        rw [List.map_append, List.map_cons] at h
        exact fun hm => (List.nodup_append.1 h).2.2 p.1 hm p.1 List.mem_cons_self rfl
      have hset : set ⟨done⟩ p.1 p.2 = ⟨done ++ [p]⟩ := by
        rw [set, setPair_of_not_mem hnew]
      have hrest := ih (done ++ [p]) (by simpa using h)
      rw [setAll, List.foldl_cons, hset, ← setAll, hrest, List.append_assoc, List.singleton_append]

theorem writePairs_eq_intercalate (ps : List (String × String)) :
    writePairs ps = [','].intercalate (ps.map writePair) := by
  induction ps with
  | nil => rfl
  | cons p rest ih =>
      cases rest with
      | nil => simp [writePairs]
      | cons q rest => simp [writePairs, List.intercalate_cons_cons, ih]

/-- **Well-formed parameters are read back from their written form.** -/
theorem parse_serialize {ps : Parameters} (h : ps.WellFormed) : parse ps.serialize = .ok ps := by
  obtain ⟨pairs⟩ := ps
  cases pairs with
  | nil => rfl
  | cons p rest =>
      have hproper : ∀ q ∈ (p :: rest).map Spelling.plain, q.Proper := by
        intro q hq
        obtain ⟨r, hr, rfl⟩ := List.mem_map.1 hq
        exact .plain (h.names r hr) (h.values r hr)
      have hne : (p :: rest).map Spelling.plain ≠ [] := by simp
      have hparse := parse_spellings hne hproper
      have hfields : ((p :: rest).map Spelling.plain).map Spelling.field =
          (p :: rest).map writePair := by
        rw [List.map_map]
        exact List.map_congr_left fun q _ => Spelling.field_plain q
      have hpairs : (((p :: rest).map Spelling.plain).map fun q => (q.name, q.value)) =
          p :: rest := by
        rw [List.map_map]
        exact List.map_id _
      rw [hfields, hpairs, ← writePairs_eq_intercalate] at hparse
      rw [serialize, hparse]
      exact congrArg _ (setAll_of_nodup [] h.nodup)

/-- Well-formed parameters with one written form are one and the same. -/
theorem eq_of_serialize_eq {ps ps' : Parameters} (h : ps.WellFormed) (h' : ps'.WellFormed)
    (heq : ps.serialize = ps'.serialize) : ps = ps' := by
  have hparse := parse_serialize h
  rw [heq, parse_serialize h'] at hparse
  exact (Except.ok.inj hparse).symm

end Parameters
end Loopsmith
