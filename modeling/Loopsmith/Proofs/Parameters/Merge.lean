import Loopsmith.Proofs.Parameters.Insertion
import Loopsmith.Proofs.Text.Bytes

/-!
# One list behind another

Two texts with a comma between them are read as one list.  The fields of the second are read
after those of the first, so the outcome is that of the first text as far as it goes, and then that
of the second: its error, only further on, or its pairs, put into the list that is there.

The reader does three things at once: it reads each field, counts the bytes it has passed, and sets
the pair.  In `readPairs` the last one is left out, and what is read from fields is a list of
pairs in order (`readFields_eq`).  Counting only shows in the spans of errors (`readPairs_add`), and
setting the pairs of a list that has been read comes to the same as setting the pairs that it was
read from (`setAll_pairs_setAll`), although a name that was given twice has lost its first value.

Which fields can be read is said without the reader, by the ways in which a pair can be spelled
(`WellSpelled`).  An error has the span of the first field that is not one of them.
-/

namespace Loopsmith

open Text (byteLength)

/-- The error for the same field `n` bytes further on. -/
def ParameterError.shift (n : Nat) : ParameterError → ParameterError
  | emptyPair span => emptyPair (span.shift n)
  | missingSeparator pair span => missingSeparator pair (span.shift n)
  | emptyName pair span => emptyName pair (span.shift n)
  | invalidName name c span => invalidName name c (span.shift n)
  | invalidValue name value span => invalidValue name value (span.shift n)

namespace Text

/-- A text is what trimming leaves of it with blanks around. -/
theorem exists_padding (cs : List Char) :
    ∃ b b', (∀ c ∈ b, isBlank c = true) ∧ (∀ c ∈ b', isBlank c = true) ∧
      cs = b ++ trim cs ++ b' := by
  refine ⟨cs.takeWhile isBlank, ((trimStart cs).reverse.takeWhile isBlank).reverse, ?_, ?_, ?_⟩
  · intro c hc
    exact List.mem_takeWhile_imp hc
  · intro c hc
    exact List.mem_takeWhile_imp (List.mem_reverse.1 hc)
  · have hend : trim cs ++ ((trimStart cs).reverse.takeWhile isBlank).reverse = trimStart cs := by
      rw [trim, trimEnd, ← List.reverse_append, List.takeWhile_append_dropWhile,
        List.reverse_reverse]
    rw [List.append_assoc, hend, trimStart, List.takeWhile_append_dropWhile]

/-- The fields of a text, with a separator behind each of them. -/
theorem flatMap_splitOn (sep : Char) (cs : List Char) :
    (splitOn sep cs).flatMap (· ++ [sep]) = cs ++ [sep] := by
  induction cs with
  | nil => rfl
  | cons c cs ih =>
      rw [splitOn]
      split
      · next hc =>
          rw [List.flatMap_cons, ih, eq_of_beq hc]
          rfl
      · cases hs : splitOn sep cs with
        | nil => exact absurd hs (splitOn_ne_nil sep cs)
        | cons f fs =>
            rw [hs, List.flatMap_cons] at ih
            dsimp only
            rw [List.flatMap_cons, List.cons_append, List.cons_append, ih, List.cons_append]

/-- A separator between fields may be seen as behind the one or as before the other. -/
theorem cons_flatMap_concat (sep : Char) (fields : List (List Char)) :
    sep :: fields.flatMap (· ++ [sep]) = fields.flatMap (sep :: ·) ++ [sep] := by
  induction fields with
  | nil => rfl
  | cons f fields ih =>
      rw [List.flatMap_cons, List.flatMap_cons, List.append_assoc, List.append_assoc,
        List.singleton_append, ih, List.cons_append]

/-- A text around one of its fields. -/
theorem eq_around_field {sep : Char} {cs field : List Char} {before after : List (List Char)}
    (h : splitOn sep cs = before ++ field :: after) :
    cs = before.flatMap (· ++ [sep]) ++ field ++ after.flatMap (sep :: ·) := by
  have hcs : cs ++ [sep] =
      before.flatMap (· ++ [sep]) ++ field ++ after.flatMap (sep :: ·) ++ [sep] := by
    calc cs ++ [sep] = (before ++ field :: after).flatMap (· ++ [sep]) := by
          rw [← h, flatMap_splitOn]
      _ = before.flatMap (· ++ [sep]) ++ field ++ (sep :: after.flatMap (· ++ [sep])) := by
          simp
      _ = _ := by simp only [cons_flatMap_concat, List.append_assoc]
  exact List.append_cancel_right hcs

end Text

namespace Parameters

/-! ## Fields that can be read -/

/-- The field is a pair with blanks around its name and its value. -/
def WellSpelled (field : List Char) : Prop :=
  ∃ p : Spelling, p.Proper ∧ p.field = field

/-- The fields that can be read are those that spell a pair. -/
theorem exists_readField_iff {field : List Char} (hcomma : ',' ∉ field) (span : Span) :
    (∃ pair, readField field span = .ok pair) ↔ WellSpelled field := by
  constructor
  · rintro ⟨⟨name, value⟩, h⟩
    obtain ⟨hname, hvalue⟩ := isName_and_isValue_of_readField h hcomma
    obtain ⟨n, v, hsplit, hn, hv⟩ : ∃ n v, splitPair field = some (n, v) ∧
        Text.trim n = name.toList ∧ Text.trim v = value.toList := by
      unfold readField at h
      dsimp only at h
      split at h
      · cases h
      · cases hs : splitPair field with
        | none => rw [hs] at h; cases h
        | some nv =>
            obtain ⟨n, v⟩ := nv
            rw [hs] at h
            dsimp only at h
            split at h
            · cases h
            · cases hcheck : checkName (Text.trim n) span with
              | error e => rw [hcheck] at h; cases h
              | ok u =>
                  rw [hcheck] at h
                  cases h
                  exact ⟨n, v, rfl, by simp, by simp⟩
    obtain ⟨b, b', hb, hb', hpadded⟩ := Text.exists_padding n
    obtain ⟨d, d', hd, hd', hpadded'⟩ := Text.exists_padding v
    refine ⟨⟨name, value, b, b', d, d'⟩, ⟨hname, hvalue, hb, hb', hd, hd'⟩, ?_⟩
    rw [Spelling.field, ← hn, ← hv, ← hpadded, ← hpadded', eq_append_of_splitPair hsplit]
  · rintro ⟨p, hp, rfl⟩
    exact ⟨_, hp.readField_eq span⟩

theorem checkName_shift (name : List Char) (span : Span) (n : Nat) :
    checkName name (span.shift n) = (checkName name span).mapError (·.shift n) := by
  unfold checkName
  cases name.find? (fun c => !isNameChar c) with
  | none => rfl
  | some c => rfl

/-- Where a field stands is only told by its error. -/
theorem readField_shift (field : List Char) (span : Span) (n : Nat) :
    readField field (span.shift n) = (readField field span).mapError (·.shift n) := by
  unfold readField
  dsimp only
  split
  · rfl
  · cases splitPair field with
    | none => rfl
    | some nv =>
        obtain ⟨name, value⟩ := nv
        dsimp only
        split
        · rfl
        · rw [checkName_shift]
          cases checkName (Text.trim name) span with
          | error e => rfl
          | ok u => rfl

theorem span_of_readField_eq_error {field : List Char} {span : Span} {e : ParameterError}
    (h : readField field span = .error e) : e.span = span := by
  unfold readField checkName at h
  dsimp only at h
  split at h
  · cases h
    rfl
  · cases hs : splitPair field with
    | none =>
        rw [hs] at h
        cases h
        rfl
    | some nv =>
        rw [hs] at h
        dsimp only at h
        split at h
        · cases h
          rfl
        · cases hf : (Text.trim nv.1).find? (fun c => !isNameChar c) with
          | none => rw [hf] at h; cases h
          | some c =>
              rw [hf] at h
              cases h
              rfl

/-! ## The pairs of fields -/

/-- The pairs that are read from fields, the first of them at byte `pos`. -/
def readPairs (pos : Nat) : List (List Char) → Except ParameterError (List (String × String))
  | [] => .ok []
  | field :: rest => do
      let pair ← readField field (Span.ofWidth pos (byteLength field))
      let pairs ← readPairs (pos + byteLength field + 1) rest
      return pair :: pairs

theorem readFields_eq (ps : Parameters) (pos : Nat) (fields : List (List Char)) :
    readFields ps pos fields = (readPairs pos fields).map ps.setAll := by
  induction fields generalizing ps pos with
  | nil => rfl
  | cons field rest ih =>
      rw [readFields, readPairs]
      cases readField field (Span.ofWidth pos (byteLength field)) with
      | error e => rfl
      | ok pair =>
          dsimp only [bind, Except.bind]
          rw [ih]
          cases readPairs (pos + byteLength field + 1) rest with
          | error e => rfl
          | ok pairs => rfl

/-- The bytes that fields take up with a comma behind each of them. -/
def width (fields : List (List Char)) : Nat :=
  byteLength (fields.flatMap (· ++ [',']))

theorem width_cons (field : List Char) (rest : List (List Char)) :
    width (field :: rest) = byteLength field + 1 + width rest := by
  rw [width, List.flatMap_cons, Text.byteLength_append, Text.byteLength_append]
  rfl

theorem width_splitOn (cs : List Char) : width (Text.splitOn ',' cs) = byteLength cs + 1 := by
  rw [width, Text.flatMap_splitOn, Text.byteLength_append]
  rfl

/-- Fields are read as they are anywhere else, and errors are further on. -/
theorem readPairs_add (pos n : Nat) (fields : List (List Char)) :
    readPairs (pos + n) fields = (readPairs pos fields).mapError (·.shift n) := by
  induction fields generalizing pos with
  | nil => rfl
  | cons field rest ih =>
      have hspan : Span.ofWidth (pos + n) (byteLength field) =
          (Span.ofWidth pos (byteLength field)).shift n := by
        simp only [Span.ofWidth, Span.shift, Span.mk.injEq, true_and]
        omega
      have hpos : pos + n + byteLength field + 1 = pos + byteLength field + 1 + n := by omega
      rw [readPairs, readPairs, hspan, readField_shift, hpos, ih]
      cases readField field (Span.ofWidth pos (byteLength field)) with
      | error e => rfl
      | ok pair =>
          dsimp only [Except.mapError, bind, Except.bind]
          cases readPairs (pos + byteLength field + 1) rest with
          | error e => rfl
          | ok pairs => rfl

/-- The first fields are read first. -/
theorem readPairs_append (pos : Nat) (fields more : List (List Char)) :
    readPairs pos (fields ++ more) = (readPairs pos fields).bind fun pairs =>
      (readPairs (pos + width fields) more).map (pairs ++ ·) := by
  induction fields generalizing pos with
  | nil =>
      change readPairs pos more = (readPairs (pos + 0) more).map fun pairs => pairs
      rw [Nat.add_zero]
      cases readPairs pos more with
      | error e => rfl
      | ok pairs => rfl
  | cons field rest ih =>
      have hpos : pos + width (field :: rest) = pos + byteLength field + 1 + width rest := by
        rw [width_cons]
        omega
      rw [List.cons_append, readPairs, readPairs, hpos, ih]
      cases readField field (Span.ofWidth pos (byteLength field)) with
      | error e => rfl
      | ok pair =>
          dsimp only [bind, Except.bind]
          cases readPairs (pos + byteLength field + 1) rest with
          | error e => rfl
          | ok pairs =>
              dsimp only
              cases readPairs (pos + byteLength field + 1 + width rest) more with
              | error e => rfl
              | ok pairs' => rfl

/-- An error is that of the first field that cannot be read. -/
theorem exists_of_readPairs_eq_error {pos : Nat} {fields : List (List Char)} {e : ParameterError}
    (hcomma : ∀ f ∈ fields, ',' ∉ f) (h : readPairs pos fields = .error e) :
    ∃ before field after, fields = before ++ field :: after ∧ (∀ f ∈ before, WellSpelled f) ∧
      readField field (Span.ofWidth (pos + width before) (byteLength field)) = .error e := by
  induction fields generalizing pos with
  | nil => cases h
  | cons field rest ih =>
      obtain ⟨hfield, hrest⟩ := List.forall_mem_cons.1 hcomma
      rw [readPairs] at h
      cases hread : readField field (Span.ofWidth pos (byteLength field)) with
      | error e' =>
          rw [hread] at h
          cases h
          exact ⟨[], field, rest, rfl, by simp, hread⟩
      | ok pair =>
          rw [hread] at h
          dsimp only [bind, Except.bind] at h
          cases hpairs : readPairs (pos + byteLength field + 1) rest with
          | ok pairs => rw [hpairs] at h; cases h
          | error e' =>
              rw [hpairs] at h
              cases h
              obtain ⟨before, bad, after, rfl, hbefore, hbad⟩ := ih hrest hpairs
              have hspelled := (exists_readField_iff hfield _).1 ⟨pair, hread⟩
              refine ⟨field :: before, bad, after, rfl,
                List.forall_mem_cons.2 ⟨hspelled, hbefore⟩, ?_⟩
              rw [width_cons]
              rwa [← Nat.add_assoc, ← Nat.add_assoc]

theorem parse_eq_readPairs {text : String} (h : Text.isBlankText text = false) :
    parse text = (readPairs 0 (Text.splitOn ',' text.toList)).map empty.setAll := by
  rw [parse, ofChars?, ← Text.isBlankText, h, if_neg Bool.false_ne_true, readFields_eq]

/-! ## Setting the pairs of a list -/

theorem setPair_setPair (name old value : String) (pairs : List (String × String)) :
    setPair name value (setPair name old pairs) = setPair name value pairs := by
  induction pairs with
  | nil => simp [setPair]
  | cons p pairs ih =>
      by_cases hp : p.1 = name
      · rw [setPair, if_pos hp, setPair, if_pos hp, setPair, if_pos hp]
      · rw [setPair, if_neg hp, setPair, if_neg hp, ih, setPair, if_neg hp]

/-- A name that is there can be given its value before another one or after it. -/
theorem setPair_comm {name other : String} (hne : other ≠ name) (value value' : String)
    {pairs : List (String × String)} (h : name ∈ pairs.map Prod.fst) :
    setPair name value (setPair other value' pairs) =
      setPair other value' (setPair name value pairs) := by
  induction pairs with
  | nil => cases h
  | cons p pairs ih =>
      by_cases hp : p.1 = name
      · have hother : p.1 ≠ other := fun heq => hne (heq.symm.trans hp)
        rw [setPair, if_neg hother, setPair, if_pos hp, setPair, if_pos hp, setPair, if_neg hother]
      · have hmem : name ∈ pairs.map Prod.fst :=
          (List.mem_cons.1 h).resolve_left fun heq => hp heq.symm
        by_cases hother : p.1 = other
        · rw [setPair, if_pos hother, setPair, if_neg hp, setPair, if_neg hp, setPair,
            if_pos hother]
        · rw [setPair, if_neg hother, setPair, if_neg hp, ih hmem, setPair, if_neg hp, setPair,
            if_neg hother]

theorem setAll_cons (ps : Parameters) (p : String × String) (pairs : List (String × String)) :
    ps.setAll (p :: pairs) = (ps.set p.1 p.2).setAll pairs :=
  rfl

theorem mem_names_set_self (ps : Parameters) (name value : String) :
    name ∈ (ps.set name value).names := by
  rw [names_set]
  split
  · next hmem => exact hmem
  · exact List.mem_append_right _ (List.mem_singleton.2 rfl)

theorem mem_names_set {ps : Parameters} {name : String} (h : name ∈ ps.names)
    (other value : String) : name ∈ (ps.set other value).names := by
  rw [names_set]
  split
  · exact h
  · exact List.mem_append_left _ h

/-- A name that is there can be given its value before names other than it or after them. -/
theorem set_setAll {ps : Parameters} {name : String} (hmem : name ∈ ps.names) (value : String)
    {pairs : List (String × String)} (h : name ∉ pairs.map Prod.fst) :
    (ps.setAll pairs).set name value = (ps.set name value).setAll pairs := by
  induction pairs generalizing ps with
  | nil => rfl
  | cons p pairs ih =>
      rw [List.map_cons, List.mem_cons, not_or] at h
      have hcomm : (ps.set p.1 p.2).set name value = (ps.set name value).set p.1 p.2 :=
        congrArg Parameters.mk (setPair_comm (Ne.symm h.1) value p.2 hmem)
      rw [setAll_cons, ih (mem_names_set hmem p.1 p.2) h.2, hcomm, setAll_cons]

/-- It does not matter whether a value is replaced before the pairs are set or after. -/
theorem setAll_setPair (ps : Parameters) (name value : String) {pairs : List (String × String)}
    (h : (pairs.map Prod.fst).Nodup) :
    ps.setAll (setPair name value pairs) = (ps.setAll pairs).set name value := by
  induction pairs generalizing ps with
  | nil => rfl
  | cons p pairs ih =>
      obtain ⟨hnot, hnodup⟩ := List.nodup_cons.1 h
      rw [setPair]
      split
      · next hp =>
          subst hp
          rw [setAll_cons, setAll_cons, set_setAll (mem_names_set_self ps p.1 p.2) value hnot]
          exact congrArg (setAll · pairs)
            (congrArg Parameters.mk (setPair_setPair p.1 p.2 value ps.pairs).symm)
      · rw [setAll_cons, setAll_cons, ih _ hnodup]

/-- Pairs may be collected in a list of their own before they are set. -/
theorem setAll_pairs_setAll (ps : Parameters) {qs : Parameters} (h : qs.names.Nodup)
    (pairs : List (String × String)) :
    ps.setAll (qs.setAll pairs).pairs = (ps.setAll qs.pairs).setAll pairs := by
  induction pairs generalizing qs with
  | nil => rfl
  | cons p pairs ih =>
      rw [setAll_cons, ih (nodup_names_set h p.1 p.2), set, setAll_setPair ps p.1 p.2 h, setAll_cons]

theorem contains_iff {ps : Parameters} {name : String} :
    ps.contains name = true ↔ name ∈ ps.names := by
  rw [contains, get?, Option.isSome_iff_ne_none, ne_eq, List.lookup_eq_none_iff, names, List.mem_map]
  simp only [bne_iff_ne, ne_eq, not_forall, not_not, exists_prop]
  exact exists_congr fun p => and_congr_right fun _ => eq_comm

/-- Of the two values of a name, the later one stays. -/
theorem get?_setAll (ps : Parameters) {pairs : List (String × String)}
    (h : (pairs.map Prod.fst).Nodup) (name : String) :
    (ps.setAll pairs).get? name = (get? ⟨pairs⟩ name).or (ps.get? name) := by
  induction pairs generalizing ps with
  | nil => rfl
  | cons p pairs ih =>
      obtain ⟨hnot, hnodup⟩ := List.nodup_cons.1 h
      rw [setAll_cons, ih _ hnodup, get?_set]
      change (pairs.lookup name).or _ = ((p :: pairs).lookup name).or _
      rw [List.lookup_cons]
      by_cases hname : name = p.1
      · have hnone : pairs.lookup name = none := by
          rw [List.lookup_eq_none_iff]
          intro q hq
          rw [bne_iff_ne, hname]
          rintro heq
          exact hnot (List.mem_map.2 ⟨q, hq, heq.symm⟩)
        rw [if_pos hname, hnone, hname, beq_self_eq_true]
        rfl
      · rw [if_neg hname, beq_eq_false_iff_ne.2 hname]

/-- Names keep their places, and new ones follow. -/
theorem names_setAll (ps : Parameters) {pairs : List (String × String)}
    (h : (pairs.map Prod.fst).Nodup) :
    (ps.setAll pairs).names = ps.names ++ (pairs.map Prod.fst).filter (!ps.contains ·) := by
  induction pairs generalizing ps with
  | nil => exact (List.append_nil _).symm
  | cons p pairs ih =>
      obtain ⟨hnot, hnodup⟩ := List.nodup_cons.1 h
      have hrest : (pairs.map Prod.fst).filter (!(ps.set p.1 p.2).contains ·) =
          (pairs.map Prod.fst).filter (!ps.contains ·) := by
        refine List.filter_congr fun name hname => ?_
        have hne : name ≠ p.1 := fun heq => hnot (heq ▸ hname)
        rw [contains, get?_set, if_neg hne, contains]
      rw [setAll_cons, ih _ hnodup, hrest, names_set, List.map_cons, List.filter_cons]
      by_cases hmem : p.1 ∈ ps.names
      · rw [if_pos hmem, contains_iff.2 hmem, Bool.not_true, if_neg Bool.false_ne_true]
      · have hnew : ps.contains p.1 = false := by
          rw [← Bool.not_eq_true, contains_iff]
          exact hmem
        rw [if_neg hmem, hnew, Bool.not_false, if_pos rfl, List.append_assoc, List.singleton_append]

/-! ## Inserting the pairs of a list -/

/-- Inserts pairs in order, unless one of them is refused. -/
def insertAll (ps : Parameters) (pairs : List (String × String)) :
    Except ParameterError Parameters :=
  pairs.foldlM (fun ps p => (ps.insert p.1 p.2).1.map fun _ => (ps.insert p.1 p.2).2) ps

theorem insertAll_eq_ok (ps : Parameters) {pairs : List (String × String)}
    (h : ∀ p ∈ pairs, IsName p.1 ∧ isValue p.2.toList = true) :
    ps.insertAll pairs = .ok (ps.setAll pairs) := by
  induction pairs generalizing ps with
  | nil => rfl
  | cons p pairs ih =>
      obtain ⟨hp, hpairs⟩ := List.forall_mem_cons.1 h
      rw [insertAll, List.foldlM_cons, insert_of_isName ps hp]
      exact ih _ hpairs

/-! ## Reading one text behind another -/

section

variable {a b : String}

theorem isBlankText_append_comma (a b : String) : Text.isBlankText (a ++ "," ++ b) = false := by
  have hmem : ',' ∈ (a ++ "," ++ b).toList := by simp
  simpa [Text.isBlankText] using Text.trim_ne_nil hmem (by decide)

/-- The fields of the second text are read behind those of the first. -/
theorem parse_append_comma (ha : Text.isBlankText a = false) (hb : Text.isBlankText b = false) :
    parse (a ++ "," ++ b) = (parse a).bind fun ps =>
      ((parse b).mapError (·.shift (byteLength a.toList + 1))).map fun qs => ps.setAll qs.pairs := by
  have hfields : Text.splitOn ',' (a ++ "," ++ b).toList =
      Text.splitOn ',' a.toList ++ Text.splitOn ',' b.toList := by
    rw [← Text.splitOn_append]
    simp
  rw [parse_eq_readPairs (isBlankText_append_comma a b), hfields, readPairs_append, Nat.zero_add,
    width_splitOn, parse_eq_readPairs ha, parse_eq_readPairs hb]
  have hadd := readPairs_add 0 (byteLength a.toList + 1) (Text.splitOn ',' b.toList)
  rw [Nat.zero_add] at hadd
  rw [hadd]
  cases readPairs 0 (Text.splitOn ',' a.toList) with
  | error e => rfl
  | ok pairs =>
      cases readPairs 0 (Text.splitOn ',' b.toList) with
      | error e => rfl
      | ok more =>
          dsimp only [Except.bind, Except.map, Except.mapError]
          rw [setAll_pairs_setAll _ (by simp [names, empty]) more, setAll, List.foldl_append]
          rfl

end

/-- **Texts are read from left to right, and errors tell where they are.**

Let `a` and `b` be texts that are not blank.  If `a` cannot be read, `a,b` has the error of `a`.  If
`a` can be read and `b` cannot, it has the error of `b`, with the span moved by the bytes of `a` and the
comma.  If both can be read, `a,b` reads as the list of `a` into which the pairs of `b` are
inserted in order, none of which is refused: the values of `b` win, names that are in `a` keep their
places, and the others follow.

For every text that cannot be read, the span of the error begins and ends between characters and
selects one of the fields, and this is the first that does not spell a pair. -/
theorem parse_merges :
    (∀ a b : String, Text.isBlankText a = false → Text.isBlankText b = false →
      (∀ e, parse a = .error e → parse (a ++ "," ++ b) = .error e) ∧
      (∀ ps e, parse a = .ok ps → parse b = .error e →
        parse (a ++ "," ++ b) = .error (e.shift (byteLength a.toList + 1))) ∧
      ∀ ps qs, parse a = .ok ps → parse b = .ok qs →
        ∃ rs, ps.insertAll qs.pairs = .ok rs ∧ parse (a ++ "," ++ b) = .ok rs ∧
          (∀ name, rs.get? name = (qs.get? name).or (ps.get? name)) ∧
          rs.names = ps.names ++ qs.names.filter (!ps.contains ·)) ∧
    ∀ (text : String) (e : ParameterError), parse text = .error e →
      ∃ before field after, Text.splitOn ',' text.toList = before ++ field :: after ∧
        (∀ f ∈ before, WellSpelled f) ∧ ¬ WellSpelled field ∧
        text.toList = before.flatMap (· ++ [',']) ++ field ++ after.flatMap (',' :: ·) ∧
        e.span = Span.ofWidth (byteLength (before.flatMap (· ++ [',']))) (byteLength field) ∧
        Text.IsBoundary text.toList e.span.start ∧ Text.IsBoundary text.toList e.span.stop := by
  refine ⟨?_, ?_⟩
  · intro a b ha hb
    have hparse := parse_append_comma ha hb
    refine ⟨?_, ?_, ?_⟩
    · intro e he
      rw [hparse, he]
      rfl
    · intro ps e hps he
      rw [hparse, hps, he]
      rfl
    · intro ps qs hps hqs
      have hread := wellFormed_of_parse hqs
      refine ⟨ps.setAll qs.pairs, ?_, ?_, ?_, ?_⟩
      · exact insertAll_eq_ok ps fun p hp => ⟨hread.names p hp, hread.values p hp⟩
      · rw [hparse, hps, hqs]
        rfl
      · exact get?_setAll ps hread.nodup
      · exact names_setAll ps hread.nodup
  · intro text e h
    have hblank : Text.isBlankText text = false := by
      rw [← Bool.not_eq_true]
      intro hblank
      rw [parse, ofChars?, ← Text.isBlankText, if_pos hblank] at h
      cases h
    have hcomma : ∀ f ∈ Text.splitOn ',' text.toList, ',' ∉ f := fun f =>
      Text.not_mem_of_mem_splitOn
    rw [parse_eq_readPairs hblank] at h
    cases hpairs : readPairs 0 (Text.splitOn ',' text.toList) with
    | ok pairs =>
        rw [hpairs] at h
        cases h
    | error e' =>
        rw [hpairs] at h
        cases h
        obtain ⟨before, field, after, hfields, hbefore, hread⟩ :=
          exists_of_readPairs_eq_error hcomma hpairs
        rw [Nat.zero_add] at hread
        have hspan := span_of_readField_eq_error hread
        have htext := Text.eq_around_field hfields
        refine ⟨before, field, after, hfields, hbefore, ?_, htext, hspan, ?_, ?_⟩
        · intro hspelled
          have hfield : ',' ∉ field := hcomma field (by simp [hfields])
          obtain ⟨pair, hpair⟩ := (exists_readField_iff hfield _).2 hspelled
          rw [hread] at hpair
          cases hpair
        · rw [hspan]
          exact ⟨_, _, htext.trans (List.append_assoc _ _ _), rfl⟩
        · rw [hspan]
          exact ⟨_, _, htext, (Text.byteLength_append _ _).symm⟩

/-- The second text gives a name twice and one that the first has given; with a field of blanks in it,
it is refused at the byte where this field begins in the whole. -/
theorem parse_merges_repeated :
    (∃ rs, parse "é:1" = .error (.invalidName "é" 'é' ⟨0, 4⟩) ∧
      parse " A:ü,B :" = .ok ⟨[("A", "ü"), ("B", "")]⟩ ∧
      parse (" A:ü,B :" ++ "," ++ "C:1,B:2,C:x y") = .ok rs ∧
      rs.get? "B" = some "2" ∧ rs.names = ["A", "B", "C"]) ∧
    parse ("é:1" ++ "," ++ "C:1,\u3000") = .error (.invalidName "é" 'é' ⟨0, 4⟩) ∧
    parse (" A:ü,B :" ++ "," ++ "C:1,\u3000") = .error (.emptyPair ⟨14, 17⟩) ∧
    ∃ before field after,
      Text.splitOn ',' (" A:ü,B :" ++ "," ++ "C:1,\u3000").toList = before ++ field :: after ∧
        (∀ f ∈ before, WellSpelled f) ∧ ¬ WellSpelled field := by
  have hfirst : parse " A:ü,B :" = .ok ⟨[("A", "ü"), ("B", "")]⟩ := by decide
  have hmany : parse "C:1,B:2,C:x y" = .ok ⟨[("C", "x y"), ("B", "2")]⟩ := by decide
  have hbad : parse "é:1" = .error (.invalidName "é" 'é' ⟨0, 4⟩) := by decide
  have hblank : parse "C:1,\u3000" = .error (.emptyPair ⟨4, 7⟩) := by decide
  obtain ⟨hmerge, hspan⟩ := parse_merges
  obtain ⟨-, hsecond, -⟩ := hmerge " A:ü,B :" "C:1,\u3000" (by decide) (by decide)
  obtain ⟨-, -, hboth⟩ := hmerge " A:ü,B :" "C:1,B:2,C:x y" (by decide) (by decide)
  obtain ⟨herror, -, -⟩ := hmerge "é:1" "C:1,\u3000" (by decide) (by decide)
  obtain ⟨rs, -, hrs, hvalues, hnames⟩ := hboth _ _ hfirst hmany
  have hwhole := hsecond _ _ hfirst hblank
  obtain ⟨before, field, after, hfields, hbefore, hfield, -⟩ := hspan _ _ hwhole
  exact ⟨⟨rs, hbad, hfirst, hrs, hvalues "B", hnames⟩, herror _ hbad, hwhole, before, field, after,
    hfields, hbefore, hfield⟩

end Parameters
end Loopsmith
