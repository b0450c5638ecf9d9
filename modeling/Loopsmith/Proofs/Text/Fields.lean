import Loopsmith.Name
import Loopsmith.Text.Blank
import Loopsmith.Text.Split
import Mathlib.Data.List.TakeWhile

/-!
# Names, blanks and fields

The three small notions that the readers of parameters and templates share, with what is
needed about them in proofs.

* A name is not empty and made of name characters (`IsName`), and a name character is none of
  the characters that could end or divide something: no blank, comma or colon.
* Trimming takes an infix of a text (`trim_infix`) and nothing from a text that does not begin
  or end with a blank (`trim_eq_self_iff`), which is the case of a trimmed one; what it takes is
  all that blanks around such a text add to it (`trim_padded`).
* Splitting at a separator undoes joining with it (`splitOn_append`, `splitOn_intercalate`), and no
  field holds the separator (`not_mem_of_mem_splitOn`).
-/

namespace Loopsmith

/-! ## Names -/

/-- A name that a tag or a parameter list can have. -/
def IsName (name : String) : Prop :=
  name.toList ≠ [] ∧ ∀ c ∈ name.toList, isNameChar c = true

/-- Name characters are between the digit zero and the letter z. -/
theorem toNat_of_isNameChar {c : Char} (h : isNameChar c = true) :
    48 ≤ c.toNat ∧ c.toNat ≤ 122 ∧ c.toNat ≠ 58 := by
  change (((decide ('A'.val ≤ c.val ∧ c.val ≤ 'Z'.val) ||
    (decide ('a'.val ≤ c.val) && decide (c.val ≤ 'z'.val))) ||
    (decide ('0'.val ≤ c.val) && decide (c.val ≤ '9'.val))) || c == '_') = true at h
  simp only [Bool.or_eq_true, Bool.and_eq_true, decide_eq_true_eq, UInt32.le_iff_toNat_le,
    beq_iff_eq] at h
  have hc : c.toNat = c.val.toNat := rfl
  rcases h with ((h | h) | h) | rfl
  · simp at h; omega
  · simp at h; omega
  · simp at h; omega
  · decide

theorem not_isBlank_of_isNameChar {c : Char} (h : isNameChar c = true) :
    Text.isBlank c = false := by
  have hc := toNat_of_isNameChar h
  simp only [Text.isBlank, Text.blankRanges, List.any_cons, List.any_nil, Bool.or_eq_false_iff,
    Bool.and_eq_false_iff, decide_eq_false_iff_not, and_true]
  omega

/-- A name holds no character that is not a name character. -/
theorem IsName.not_mem {name : String} (h : IsName name) {d : Char} (hd : isNameChar d = false) :
    d ∉ name.toList := by
  intro hm
  rw [h.2 d hm] at hd
  cases hd

namespace Text

/-! ## Trimming -/

theorem trimStart_suffix (cs : List Char) : trimStart cs <:+ cs :=
  List.dropWhile_suffix _

theorem trimEnd_isPrefix (cs : List Char) : trimEnd cs <+: cs := by
  have h := List.dropWhile_suffix isBlank (l := cs.reverse)
  have h' := List.reverse_prefix.2 h
  rwa [List.reverse_reverse] at h'

theorem trim_infix (cs : List Char) : trim cs <:+: cs :=
  (trimEnd_isPrefix _).isInfix.trans (trimStart_suffix cs).isInfix

theorem trimStart_eq_self {cs : List Char} (h : ∀ c ∈ cs.head?, isBlank c = false) :
    trimStart cs = cs := by
  cases cs with
  | nil => rfl
  | cons c cs =>
      have hc : isBlank c = false := h c rfl
      simp [trimStart, hc]

theorem trimEnd_eq_self {cs : List Char} (h : ∀ c ∈ cs.getLast?, isBlank c = false) :
    trimEnd cs = cs := by
  have hrev : trimStart cs.reverse = cs.reverse := by
    refine trimStart_eq_self ?_
    rw [List.head?_reverse]
    exact h
  rw [trimEnd, ← trimStart, hrev, List.reverse_reverse]

theorem trim_eq_self {cs : List Char} (hhead : ∀ c ∈ cs.head?, isBlank c = false)
    (hlast : ∀ c ∈ cs.getLast?, isBlank c = false) : trim cs = cs := by
  rw [trim, trimStart_eq_self hhead, trimEnd_eq_self hlast]

theorem trim_eq_self_of_forall {cs : List Char} (h : ∀ c ∈ cs, isBlank c = false) :
    trim cs = cs :=
  trim_eq_self (fun c hc => h c (List.mem_of_mem_head? hc))
    fun c hc => h c (List.mem_of_mem_getLast? hc)

theorem not_isBlank_of_mem_head?_trimStart (cs : List Char) {c : Char}
    (h : c ∈ (trimStart cs).head?) : isBlank c = false := by
  have hne := List.head?_dropWhile_not isBlank cs
  unfold trimStart at h
  cases hd : (cs.dropWhile isBlank).head? with
  | none => rw [hd] at h; cases h
  | some d =>
      rw [hd] at h hne
      cases h
      simpa using hne

theorem not_isBlank_of_mem_getLast?_trimEnd {cs : List Char} {c : Char}
    (h : c ∈ (trimEnd cs).getLast?) : isBlank c = false := by
  refine not_isBlank_of_mem_head?_trimStart cs.reverse ?_
  rwa [trimEnd, List.getLast?_reverse] at h

/-- A trimmed text does not begin with a blank. -/
theorem not_isBlank_of_mem_head?_trim (cs : List Char) {c : Char}
    (h : c ∈ (trim cs).head?) : isBlank c = false := by
  -- what is left at the front was at the front before the blanks at the end were taken
  obtain ⟨t, ht⟩ := trimEnd_isPrefix (trimStart cs)
  refine not_isBlank_of_mem_head?_trimStart cs ?_
  rw [← ht, List.head?_append]
  have hc : (trimEnd (trimStart cs)).head? = some c := h
  rw [hc]
  rfl

/-- Trimming leaves alone exactly the texts that neither begin nor end with a blank. -/
theorem trim_eq_self_iff {cs : List Char} :
    trim cs = cs ↔
      (∀ c ∈ cs.head?, isBlank c = false) ∧ ∀ c ∈ cs.getLast?, isBlank c = false := by
  constructor
  · intro h
    rw [← h]
    exact ⟨fun c hc => not_isBlank_of_mem_head?_trim cs hc,
      fun c hc => not_isBlank_of_mem_getLast?_trimEnd hc⟩
  · rintro ⟨hhead, hlast⟩
    exact trim_eq_self hhead hlast

/-- A trimmed text is left alone. -/
theorem trim_trim (cs : List Char) : trim (trim cs) = trim cs :=
  trim_eq_self (fun _ hc => not_isBlank_of_mem_head?_trim cs hc)
    fun _ hc => not_isBlank_of_mem_getLast?_trimEnd hc

theorem trim_ne_nil {cs : List Char} {c : Char} (hc : c ∈ cs) (h : isBlank c = false) :
    trim cs ≠ [] := by
  intro hnil
  have hstart : c ∈ trimStart cs := by
    have happ := List.takeWhile_append_dropWhile (p := isBlank) (l := cs)
    rw [← happ] at hc
    rcases List.mem_append.1 hc with hc | hc
    · rw [List.mem_takeWhile_imp hc] at h
      cases h
    · exact hc
  have hend : (trimStart cs).reverse.dropWhile isBlank = [] := by
    simpa [trim, trimEnd] using hnil
  rw [List.dropWhile_eq_nil_iff] at hend
  rw [hend c (List.mem_reverse.2 hstart)] at h
  cases h

/-- Trimming takes the blanks that were put around a trimmed text. -/
theorem trim_padded {b cs b' : List Char} (hb : ∀ c ∈ b, isBlank c = true)
    (hb' : ∀ c ∈ b', isBlank c = true) (h : trim cs = cs) : trim (b ++ cs ++ b') = cs := by
  have hstart : trimStart (b ++ cs ++ b') = trimStart (cs ++ b') := by
    rw [List.append_assoc, trimStart, List.dropWhile_append_of_pos hb, trimStart]
  have hend (ds : List Char) : trimEnd (ds ++ b') = trimEnd ds := by
    rw [trimEnd, List.reverse_append,
      List.dropWhile_append_of_pos fun c hc => hb' c (List.mem_reverse.1 hc), trimEnd]
  cases cs with
  | nil =>
      have hnil : trimStart b' = [] := List.dropWhile_eq_nil_iff.2 hb'
      rw [trim, hstart, List.nil_append, hnil]
      rfl
  | cons c cs =>
      have hc : isBlank c = false := by
        refine not_isBlank_of_mem_head?_trim (c :: cs) ?_
        rw [h]
        rfl
      have hself : trimStart (c :: cs ++ b') = c :: cs ++ b' :=
        trimStart_eq_self fun d hd => by cases hd; exact hc
      have hself' : trimStart (c :: cs) = c :: cs :=
        trimStart_eq_self fun d hd => by cases hd; exact hc
      rw [trim, hself'] at h
      rw [trim, hstart, hself, hend, h]

/-! ## Splitting -/

theorem splitOn_of_not_mem {sep : Char} {cs : List Char} (h : sep ∉ cs) :
    splitOn sep cs = [cs] := by
  induction cs with
  | nil => rfl
  | cons c cs ih =>
      have hc : (c == sep) = false := by
        have hne : c ≠ sep := fun hc => h (by simp [hc])
        simpa using hne
      have hcs : sep ∉ cs := fun hm => h (List.mem_cons_of_mem _ hm)
      rw [splitOn, hc, ih hcs]
      rfl

/-- The fields of a joined text are the fields of its parts. -/
theorem splitOn_append (sep : Char) (a b : List Char) :
    splitOn sep (a ++ sep :: b) = splitOn sep a ++ splitOn sep b := by
  induction a with
  | nil => simp [splitOn]
  | cons c a ih =>
      rw [List.cons_append, splitOn, splitOn, ih]
      split
      · rfl
      · cases hs : splitOn sep a with
        | nil => exact absurd hs (splitOn_ne_nil sep a)
        | cons f fs => rfl

/-- What comes after the last separator is at the end of the last field. -/
theorem exists_splitOn_append {sep : Char} {b : List Char} (h : sep ∉ b) (a : List Char) :
    ∃ fields last, splitOn sep (a ++ b) = fields ++ [last ++ b] := by
  induction a with
  | nil => exact ⟨[], [], splitOn_of_not_mem h⟩
  | cons c a ih =>
      obtain ⟨fields, last, hsplit⟩ := ih
      rw [List.cons_append, splitOn, hsplit]
      split
      · exact ⟨[] :: fields, last, rfl⟩
      · cases fields with
        | nil => exact ⟨[], c :: last, rfl⟩
        | cons f fields => exact ⟨(c :: f) :: fields, last, rfl⟩

/-- Splitting undoes joining. -/
theorem splitOn_intercalate {sep : Char} {fields : List (List Char)} (hne : fields ≠ [])
    (h : ∀ f ∈ fields, sep ∉ f) : splitOn sep ([sep].intercalate fields) = fields := by
  induction fields with
  | nil => exact absurd rfl hne
  | cons f fields ih =>
      have hf := splitOn_of_not_mem (h f List.mem_cons_self)
      cases fields with
      | nil => rw [List.intercalate_singleton, hf]
      | cons g fields =>
          have hrest := ih (List.cons_ne_nil g fields) fun d hd => h d (List.mem_cons_of_mem _ hd)
          rw [List.intercalate_cons_cons, List.append_assoc, List.singleton_append,
            splitOn_append, hf, hrest, List.singleton_append]

theorem not_mem_of_mem_splitOn {sep : Char} {cs f : List Char} (h : f ∈ splitOn sep cs) :
    sep ∉ f := by
  induction cs generalizing f with
  | nil =>
      rw [splitOn, List.mem_singleton] at h
      rw [h]
      exact List.not_mem_nil
  | cons c cs ih =>
      rw [splitOn] at h
      split at h
      · rcases List.mem_cons.1 h with rfl | h
        · exact List.not_mem_nil
        · exact ih h
      · next hc =>
          have hne : sep ≠ c := fun heq => hc (by simp [heq])
          cases hs : splitOn sep cs with
          | nil => exact absurd hs (splitOn_ne_nil sep cs)
          | cons g gs =>
              rw [hs] at h ih
              rcases List.mem_cons.1 h with rfl | h
              · rw [List.mem_cons, not_or]
                exact ⟨hne, ih List.mem_cons_self⟩
              · exact ih (List.mem_cons_of_mem _ h)

end Text
end Loopsmith
