import Loopsmith.Proofs.Decimal.Literals
import Loopsmith.Toml.Flat

/-!
# Writing a document

A flat document assigns values to keys, one to a line.  Here is a way to write one, with texts in
quotes and with everything escaped that cannot stand for itself, and the proof that it is read back:
as long as no key is assigned twice, the reader finds the assignments that were written, in order
(`parse?_document`).  The one thing that can go wrong is a number that a document does not take, and
then the whole document is refused.
-/

namespace Loopsmith
namespace Toml

/-- Something that can be assigned. -/
inductive Value where
  | string (s : String)
  | number (n : Literal)
  | boolean (b : Bool)

/-! ## Texts -/

/-- A digit of base sixteen. -/
def hexChar (n : Nat) : Char :=
  Char.ofNat (if n < 10 then 48 + n else 87 + n)

/-- A character between quotes: quotes, backslashes and control characters cannot stand for
themselves. -/
def escape (c : Char) : List Char :=
  if c == '"' || c == '\\' then ['\\', c]
  else if isPrintable c then [c]
  else ['\\', 'u', '0', '0', hexChar (c.toNat / 16), hexChar (c.toNat % 16)]

/-- A text in quotes. -/
def quote (cs : List Char) : List Char :=
  '"' :: (cs.flatMap escape ++ ['"'])

theorem toNat_lt_of_not_isPrintable {c : Char} (h : isPrintable c = false) : c.toNat < 128 := by
  simp only [isPrintable, Bool.or_eq_false_iff, Bool.and_eq_false_iff, decide_eq_false_iff_not,
    bne_eq_false_iff_eq] at h
  omega

/-- A control character is found by its number. -/
theorem codePoint?_hexChars {c : Char} (h : c.toNat < 128) :
    Text.codePoint? ['0', '0', hexChar (c.toNat / 16), hexChar (c.toNat % 16)] = some c := by
  have hall : ∀ n < 128, Text.codePoint? ['0', '0', hexChar (n / 16), hexChar (n % 16)] =
      some (Char.ofNat n) := by decide
  rw [hall _ h, Char.ofNat_toNat]

theorem readBasic_escape (c : Char) (fuel : Nat) (rest : List Char) :
    readBasic (fuel + 1) (escape c ++ rest) =
      (readBasic fuel rest).map fun r => (c :: r.1, r.2) := by
  have hescape (d : Char) (cs : List Char) (hread : readEscape (d :: cs) = some (c, rest)) :
      readBasic (fuel + 1) ('\\' :: d :: cs) =
        (readBasic fuel rest).map fun r => (c :: r.1, r.2) := by
    rw [readBasic, if_neg (by decide), if_pos (beq_self_eq_true _), hread]
    simp only [Option.bind_eq_bind, Option.bind_some]
    cases readBasic fuel rest with
    | none => rfl
    | some r => rfl
  unfold escape
  split
  · next hspecial =>
      refine hescape c rest ?_
      rw [Bool.or_eq_true, beq_iff_eq, beq_iff_eq] at hspecial
      rcases hspecial with rfl | rfl
      · rfl
      · rfl
  · next hplain =>
      rw [Bool.or_eq_true, not_or] at hplain
      split
      · next hprintable =>
          rw [List.singleton_append, readBasic, if_neg hplain.1, if_neg hplain.2,
            if_pos hprintable]
          cases readBasic fuel rest with
          | none => rfl
          | some r => rfl
      · next hcontrol =>
          have hlt := toNat_lt_of_not_isPrintable (Bool.eq_false_iff.2 hcontrol)
          have hcode := codePoint?_hexChars hlt
          generalize hexChar (c.toNat / 16) = x at hcode ⊢
          generalize hexChar (c.toNat % 16) = y at hcode ⊢
          refine hescape 'u' ('0' :: '0' :: x :: y :: rest) ?_
          change (if ('0' :: '0' :: x :: y :: rest).length < 4 then none
            else (Text.codePoint? ['0', '0', x, y]).map fun c => (c, rest)) = some (c, rest)
          rw [if_neg (by simp), hcode]
          rfl

/-- A text in quotes is read up to the closing one. -/
theorem readBasic_flatMap_escape (cs : List Char) {fuel : Nat} (h : cs.length < fuel)
    (rest : List Char) :
    readBasic fuel (cs.flatMap escape ++ '"' :: rest) = some (cs, rest) := by
  induction cs generalizing fuel with
  | nil =>
      obtain ⟨fuel, rfl⟩ := Nat.exists_eq_add_of_lt h
      simp [readBasic]
  | cons c cs ih =>
      cases fuel with
      | zero => cases h
      | succ fuel =>
          rw [List.flatMap_cons, List.append_assoc, readBasic_escape,
            ih (Nat.lt_of_succ_lt_succ h)]
          rfl

/-- What is written for each element takes at least one character. -/
theorem length_le_flatMap {α : Type} {f : α → List Char} (h : ∀ x, f x ≠ []) (xs : List α) :
    xs.length ≤ (xs.flatMap f).length := by
  induction xs with
  | nil => exact Nat.le_refl 0
  | cons x xs ih =>
      have hone := List.length_pos_iff.2 (h x)
      rw [List.flatMap_cons, List.length_append, List.length_cons]
      omega

theorem escape_ne_nil (c : Char) : escape c ≠ [] := by
  unfold escape
  split
  · exact List.cons_ne_nil _ _
  · split
    · exact List.cons_ne_nil _ _
    · exact List.cons_ne_nil _ _

/-- What stands between quotes does not start with one. -/
theorem escape_ne_quote_cons (c : Char) (before after : List Char) :
    escape c ++ before ≠ '"' :: after := by
  unfold escape
  split
  · simp
  · next hplain =>
      split
      · intro heq
        rw [(List.cons.inj heq).1] at hplain
        exact hplain rfl
      · simp

theorem readString?_quote (cs : List Char) {rest : List Char} (hrest : ∀ c ∈ rest.head?, c ≠ '"') :
    readString? (quote cs ++ rest) = some (cs, rest) := by
  have hquote : quote cs ++ rest = '"' :: (cs.flatMap escape ++ '"' :: rest) := by
    simp [quote]
  have hthree (after : List Char) : cs.flatMap escape ++ '"' :: rest ≠ '"' :: '"' :: after := by
    cases cs with
    | nil =>
        intro heq
        have hhead : rest = '"' :: after := (List.cons.inj heq).2
        exact hrest '"' (by rw [hhead]; rfl) rfl
    | cons c cs =>
        rw [List.flatMap_cons, List.append_assoc]
        exact escape_ne_quote_cons c _ _
  have hlength := length_le_flatMap escape_ne_nil cs
  rw [hquote]
  unfold readString?
  split
  · next heq => exact absurd (List.cons.inj heq).2 (hthree _)
  · next heq => exact absurd (List.cons.inj heq).1 (by decide)
  · next heq =>
      cases heq
      refine readBasic_flatMap_escape cs ?_ rest
      simp only [List.length_cons, List.length_append]
      omega
  · next heq => exact absurd (List.cons.inj heq).1 (by decide)
  · next hno _ => exact absurd rfl (hno _)

/-- What does not start with a quote is no string. -/
theorem readString?_eq_none {cs : List Char} (h : ∀ c ∈ cs.head?, c ≠ '"' ∧ c ≠ '\'') :
    readString? cs = none := by
  unfold readString?
  split
  · exact absurd rfl (h _ rfl).1
  · exact absurd rfl (h _ rfl).2
  · exact absurd rfl (h _ rfl).1
  · exact absurd rfl (h _ rfl).2
  · rfl

/-! ## Values -/

namespace Value

def chars : Value → List Char
  | string s => quote s.toList
  | number n => n.chars
  | boolean true => ['t', 'r', 'u', 'e']
  | boolean false => ['f', 'a', 'l', 's', 'e']

/-- What a value is read as, if a document takes it. -/
def scalar? : Value → Option Scalar
  | string s => some (.string s)
  | number n => n.scalar?
  | boolean b => some (.boolean b)

theorem ne_quote_of_isTokenChar {c : Char} (h : isTokenChar c = true) : c ≠ '"' ∧ c ≠ '\'' := by
  constructor
  · rintro rfl
    exact absurd h (by decide)
  · rintro rfl
    exact absurd h (by decide)

/-- A value that is one word is read up to the end of the line. -/
theorem readScalar?_token {token : List Char} (hne : token ≠ [])
    (h : ∀ c ∈ token, isTokenChar c = true) (rest : List Char) :
    readScalar? (token ++ '\n' :: rest) = (readToken token).map (·, '\n' :: rest) := by
  have hstring : readString? (token ++ '\n' :: rest) = none := by
    refine readString?_eq_none fun c hc => ?_
    rw [List.head?_append_of_ne_nil _ hne] at hc
    exact ne_quote_of_isTokenChar (h c (List.mem_of_mem_head? hc))
  have hend : ∀ c ∈ ('\n' :: rest).head?, isTokenChar c = false := by
    rintro c ⟨⟩
    rfl
  rw [readScalar?, hstring]
  dsimp only
  rw [Text.takeWhile_exact h hend, Text.dropWhile_exact h hend]

theorem readScalar?_chars (v : Value) (rest : List Char) :
    readScalar? (v.chars ++ '\n' :: rest) = v.scalar?.map (·, '\n' :: rest) := by
  cases v with
  | string s =>
      have hrest : ∀ c ∈ ('\n' :: rest).head?, c ≠ '"' := by
        rintro c ⟨⟩
        decide
      rw [readScalar?, chars, readString?_quote s.toList hrest]
      simp [scalar?]
  | number n =>
      rw [chars, readScalar?_token n.chars_ne_nil fun c => n.isTokenChar_of_mem,
        n.readToken_chars]
      rfl
  | boolean b =>
      cases b with
      | true => exact readScalar?_token (by decide) (List.all_eq_true.1 (by decide)) rest
      | false => exact readScalar?_token (by decide) (List.all_eq_true.1 (by decide)) rest

theorem not_isBlank_of_mem_head? (v : Value) {c : Char} (h : c ∈ v.chars.head?) :
    isBlank c = false := by
  have htoken (hc : isTokenChar c = true) : isBlank c = false := by
    rw [Bool.eq_false_iff, isBlank, ne_eq, Bool.or_eq_true, beq_iff_eq, beq_iff_eq, not_or]
    constructor
    · rintro rfl
      exact absurd hc (by decide)
    · rintro rfl
      exact absurd hc (by decide)
  cases v with
  | string s =>
      obtain rfl := Option.some.inj h
      rfl
  | number n => exact htoken (n.isTokenChar_of_mem (List.mem_of_mem_head? h))
  | boolean b =>
      cases b with
      | true =>
          obtain rfl := Option.some.inj h
          rfl
      | false =>
          obtain rfl := Option.some.inj h
          rfl

end Value

/-! ## Lines -/

/-- A key that needs no quotes. -/
structure IsBareKey (key : String) : Prop where
  ne_nil : key.toList ≠ []
  isBareKeyChar : ∀ c ∈ key.toList, Toml.isBareKeyChar c = true

theorem IsBareKey.exists_cons {key : String} (h : IsBareKey key) :
    ∃ c cs, key.toList = c :: cs ∧ Toml.isBareKeyChar c = true := by
  obtain ⟨c, cs, hcs⟩ := List.exists_cons_of_ne_nil h.ne_nil
  exact ⟨c, cs, hcs, h.isBareKeyChar c (by rw [hcs]; exact List.mem_cons_self)⟩

/-- One line of a document. -/
def lineChars (line : String × Value) : List Char :=
  line.1.toList ++ ' ' :: '=' :: ' ' :: (line.2.chars ++ ['\n'])

/-- The document with these lines. -/
def document (lines : List (String × Value)) : String :=
  String.ofList (lines.flatMap lineChars)

/-- What a line is read as. -/
def assignment? (line : String × Value) : Option (String × Scalar) :=
  line.2.scalar?.map (line.1, ·)

theorem isBareKeyChar_ne {c d : Char} (hc : isBareKeyChar c = true)
    (hd : isBareKeyChar d = false) : c ≠ d := by
  rintro rfl
  rw [hc] at hd
  cases hd

theorem readLineEnd?_of_isBareKeyChar {c : Char} (h : isBareKeyChar c = true) (cs : List Char) :
    readLineEnd? (c :: cs) = none := by
  have hblank : isBlank c = false := by
    simp [isBlank, isBareKeyChar_ne h (d := ' ') rfl, isBareKeyChar_ne h (d := '\t') rfl]
  have hhash := isBareKeyChar_ne h (d := '#') rfl
  have hnewline : readNewline? (c :: cs) = none := by
    unfold readNewline?
    split
    · next heq => exact absurd (List.cons.inj heq).1 (isBareKeyChar_ne h rfl)
    · next heq => exact absurd (List.cons.inj heq).1 (isBareKeyChar_ne h rfl)
    · rfl
  rw [readLineEnd?, List.dropWhile_cons_of_neg (by simp [hblank])]
  split
  · next heq =>
      split at heq
      · next h => exact absurd (List.cons.inj h).1 hhash
      · cases heq
  · split
    · next h => exact absurd (List.cons.inj h).1 hhash
    · exact hnewline

theorem readKey?_append {key : String} (hkey : IsBareKey key) {rest : List Char}
    (hrest : ∀ c ∈ rest.head?, isBareKeyChar c = false) :
    readKey? (key.toList ++ rest) = some (key.toList, rest) := by
  obtain ⟨c, cs, hcs⟩ := List.exists_cons_of_ne_nil hkey.ne_nil
  have hc : isBareKeyChar c = true := hkey.isBareKeyChar c (by rw [hcs]; exact List.mem_cons_self)
  have htake := Text.takeWhile_exact hkey.isBareKeyChar hrest
  have hdrop := Text.dropWhile_exact hkey.isBareKeyChar hrest
  rw [hcs, List.cons_append] at htake hdrop ⊢
  unfold readKey?
  split
  · next heq => exact absurd (List.cons.inj heq).1 (isBareKeyChar_ne hc rfl)
  · next heq => exact absurd (List.cons.inj heq).1 (isBareKeyChar_ne hc rfl)
  · rw [htake, hdrop]
    rfl

theorem readAssignment?_lineChars {key : String} (hkey : IsBareKey key) (v : Value)
    (rest : List Char) :
    readAssignment? (lineChars (key, v) ++ rest) =
      (assignment? (key, v)).map (·, '\n' :: rest) := by
  have hline : lineChars (key, v) ++ rest =
      key.toList ++ ' ' :: '=' :: ' ' :: (v.chars ++ '\n' :: rest) := by
    simp [lineChars]
  have hread : readKey? (key.toList ++ ' ' :: '=' :: ' ' :: (v.chars ++ '\n' :: rest)) =
      some (key.toList, ' ' :: '=' :: ' ' :: (v.chars ++ '\n' :: rest)) :=
    readKey?_append hkey (by rintro c ⟨⟩; rfl)
  have hequals : (' ' :: '=' :: ' ' :: (v.chars ++ '\n' :: rest)).dropWhile isBlank =
      '=' :: ' ' :: (v.chars ++ '\n' :: rest) :=
    rfl
  have hvalue : (' ' :: (v.chars ++ '\n' :: rest)).dropWhile isBlank =
      v.chars ++ '\n' :: rest := by
    refine @Text.dropWhile_exact isBlank [' '] (v.chars ++ '\n' :: rest) ?_ fun c hc => ?_
    · exact List.forall_mem_singleton.2 rfl
    · rw [List.head?_append] at hc
      cases hhead : v.chars.head? with
      | none =>
          rw [hhead] at hc
          obtain rfl := Option.some.inj hc
          rfl
      | some d =>
          rw [hhead] at hc
          obtain rfl := Option.some.inj hc
          exact v.not_isBlank_of_mem_head? hhead
  rw [hline, readAssignment?, hread]
  simp only [Option.bind_eq_bind, Option.bind_some]
  rw [hequals]
  split
  · next heq =>
      cases heq
      rw [hvalue, v.readScalar?_chars, assignment?, String.ofList_toList]
      cases v.scalar? with
      | none => rfl
      | some x => rfl
  · next hno => exact absurd rfl (hno _)

theorem readLineEnd?_newline (rest : List Char) : readLineEnd? ('\n' :: rest) = some rest :=
  rfl

/-- What each element keeps is kept by all of them together. -/
theorem map_eq_map_of_mapM {α β γ : Type} {f : α → Option β} {g : α → γ} {k : β → γ}
    (hkept : ∀ {x y}, f x = some y → k y = g x) {xs : List α} {ys : List β}
    (h : xs.mapM f = some ys) : ys.map k = xs.map g := by
  induction xs generalizing ys with
  | nil =>
      cases h
      rfl
  | cons x xs ih =>
      rw [List.mapM_cons] at h
      obtain ⟨y, hy, h⟩ := Option.bind_eq_some_iff.1 h
      obtain ⟨zs, hzs, h⟩ := Option.bind_eq_some_iff.1 h
      cases h
      rw [List.map_cons, List.map_cons, ih hzs, hkept hy]

theorem fst_of_assignment? {line : String × Value} {e : String × Scalar}
    (h : assignment? line = some e) : e.1 = line.1 := by
  obtain ⟨x, -, rfl⟩ := Option.map_eq_some_iff.1 h
  rfl

theorem readLines_flatMap {lines : List (String × Value)}
    (hkeys : ∀ line ∈ lines, IsBareKey line.1) (hnodup : (lines.map Prod.fst).Nodup)
    {fuel : Nat} (hfuel : lines.length ≤ fuel) :
    readLines fuel (lines.flatMap lineChars) = lines.mapM assignment? := by
  induction lines generalizing fuel with
  | nil =>
      cases fuel with
      | zero => rfl
      | succ fuel => rfl
  | cons line lines ih =>
      obtain ⟨key, v⟩ := line
      have hkey := hkeys _ List.mem_cons_self
      obtain ⟨c, cs, hcs, hc⟩ := hkey.exists_cons
      have hblank : isBlank c = false := by
        simp [isBlank, isBareKeyChar_ne hc (d := ' ') rfl, isBareKeyChar_ne hc (d := '\t') rfl]
      have hassignment := readAssignment?_lineChars hkey v (lines.flatMap lineChars)
      obtain ⟨hnew, hnodup⟩ := List.nodup_cons.1 hnodup
      cases fuel with
      | zero => cases hfuel
      | succ fuel =>
          have hrest := ih (fun line hline => hkeys line (List.mem_cons_of_mem _ hline)) hnodup
            (Nat.le_of_succ_le_succ hfuel)
          obtain ⟨tail, htail⟩ :
              ∃ tail, lineChars (key, v) ++ lines.flatMap lineChars = c :: tail :=
            ⟨_, by rw [lineChars, hcs]; rfl⟩
          rw [htail] at hassignment
          rw [List.flatMap_cons, htail, readLines, readLineEnd?_of_isBareKeyChar hc,
            List.dropWhile_cons_of_neg (by simp [hblank]), hassignment, List.mapM_cons]
          cases hassigned : assignment? (key, v) with
          | none => rfl
          | some e =>
              simp only [Option.map_some, Option.bind_eq_bind, Option.bind_some,
                readLineEnd?_newline, hrest]
              cases hentries : lines.mapM assignment? with
              | none => rfl
              | some entries =>
                  have hlookup : entries.lookup e.1 = none := by
                    rw [← map_eq_map_of_mapM fst_of_assignment? hentries] at hnew
                    rw [List.lookup_eq_none_iff, fst_of_assignment? hassigned]
                    intro x hmem
                    rw [bne_iff_ne]
                    rintro rfl
                    exact hnew (List.mem_map_of_mem hmem)
                  simp [hlookup]

theorem lineChars_ne_nil (line : String × Value) : lineChars line ≠ [] := by
  simp [lineChars]

/-- No byte order mark is written. -/
theorem flatMap_ne_mark_cons {lines : List (String × Value)}
    (hkeys : ∀ line ∈ lines, IsBareKey line.1) (rest : List Char) :
    lines.flatMap lineChars ≠ '\uFEFF' :: rest := by
  cases lines with
  | nil => rintro ⟨⟩
  | cons line lines =>
      have hkey := hkeys _ List.mem_cons_self
      obtain ⟨c, cs, hcs, hc⟩ := hkey.exists_cons
      rw [List.flatMap_cons, lineChars, hcs]
      intro heq
      exact isBareKeyChar_ne hc rfl (List.cons.inj heq).1

/-- **A document is read as it was written.** -/
theorem parse?_document {lines : List (String × Value)}
    (hkeys : ∀ line ∈ lines, IsBareKey line.1) (hnodup : (lines.map Prod.fst).Nodup) :
    parse? (document lines) = lines.mapM assignment? := by
  have hlength := length_le_flatMap lineChars_ne_nil lines
  rw [parse?, document, String.toList_ofList]
  split
  · next heq => exact absurd heq (flatMap_ne_mark_cons hkeys _)
  · exact readLines_flatMap hkeys hnodup (by omega)

end Toml
end Loopsmith
