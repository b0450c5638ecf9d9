import Loopsmith.Toml.Scalar
import Mathlib.Data.List.Basic

/-!
# Number literals

The numbers that can be written the same way in an environment variable and in a TOML document: a
sign or none, digits without needless zeros, perhaps a point with digits, perhaps an exponent; or
one of the words for infinity and for no number.  A literal carries the proofs that it is well
formed, so every literal has a text, and the text can be read.

Both readers find the same double in it, with three differences in what a document takes.  It takes
a literal without point and exponent for an integer, which has 64 bits; it refuses a literal that is
too large for a double, though not its negative; and its zero has no sign if it is an integer
(`read?_text`, `readToken_chars`).
-/

namespace Loopsmith
namespace Literal

/-- One digit or more. -/
structure Digits where
  chars : List Char
  ne_nil : chars ≠ []
  isDigit : ∀ c ∈ chars, c.isDigit = true

/-- A sign, or none. -/
inductive Sign where
  | none
  | plus
  | minus
  deriving DecidableEq, Repr

namespace Sign

def chars : Sign → List Char
  | none => []
  | plus => ['+']
  | minus => ['-']

def isMinus : Sign → Bool
  | minus => true
  | _ => false

end Sign

/-- The exponent of a literal. -/
structure Exponent where
  /-- Whether the mark is a capital letter. -/
  capital : Bool
  sign : Sign
  digits : Digits

namespace Exponent

def mark (e : Exponent) : Char :=
  if e.capital then 'E' else 'e'

def chars (e : Exponent) : List Char :=
  e.mark :: (e.sign.chars ++ e.digits.chars)

/-- The same with a small letter. -/
def small (e : Exponent) : Exponent :=
  { e with capital := false }

def value (e : Exponent) : Int :=
  if e.sign.isMinus then -(Decimal.ofDigits e.digits.chars : Int)
  else Decimal.ofDigits e.digits.chars

end Exponent

/-- A literal without its sign. -/
inductive Magnitude where
  | infinite
  | nan
  | number (whole : Digits) (concise : whole.chars.length = 1 ∨ whole.chars.head? ≠ some '0')
      (places : Option Digits) (exponent : Option Exponent)

namespace Magnitude

def placesChars (places : Option Digits) : List Char :=
  match places with
  | some ds => '.' :: ds.chars
  | none => []

def exponentChars (exponent : Option Exponent) : List Char :=
  (exponent.map Exponent.chars).getD []

def chars : Magnitude → List Char
  | infinite => ['i', 'n', 'f']
  | nan => ['n', 'a', 'n']
  | number whole _ places exponent =>
      whole.chars ++ placesChars places ++ exponentChars exponent

/-- The number that the digits of a literal spell. -/
def numeral (whole : Digits) (places : Option Digits) (exponent : Option Exponent) :
    Decimal.Numeral :=
  let after := (places.map Digits.chars).getD []
  ⟨whole.chars ++ after, (exponent.map Exponent.value).getD 0 - after.length⟩

/-- The double that a literal spells. -/
def bits : Magnitude → UInt64
  | infinite => Binary64.infinity
  | nan => 0x7ff8000000000000
  | number whole _ places exponent => (numeral whole places exponent).toBits

end Magnitude
end Literal

/-- A number as it is written in a variable and in a document. -/
structure Literal where
  sign : Literal.Sign
  magnitude : Literal.Magnitude

namespace Literal

def chars (n : Literal) : List Char :=
  n.sign.chars ++ n.magnitude.chars

def text (n : Literal) : String :=
  String.ofList n.chars

def bits (n : Literal) : UInt64 :=
  Binary64.withSign n.sign.isMinus n.magnitude.bits

/-- The integer that a literal without point and exponent spells. -/
def whole? (n : Literal) : Option Int :=
  match n.magnitude with
  | .number whole _ none none =>
      some (if n.sign.isMinus then -(Decimal.ofDigits whole.chars : Int)
        else Decimal.ofDigits whole.chars)
  | _ => none

/-- Whether a literal is refused in a document for being too large. -/
def isTooLarge (n : Literal) : Bool :=
  match n.magnitude with
  | .number .. => n.magnitude.bits == Binary64.infinity && !n.sign.isMinus
  | _ => false

/-- What a document takes a literal for. -/
def scalar? (n : Literal) : Option Toml.Scalar :=
  match n.whole? with
  | some i => if Toml.inRange i then some (.integer i) else none
  | none => if n.isTooLarge then none else some (.float n.bits)

end Literal

/-! ## Spans -/

namespace Text

theorem takeWhile_exact {f : Char → Bool} {body rest : List Char}
    (hbody : ∀ c ∈ body, f c = true) (hrest : ∀ c ∈ rest.head?, f c = false) :
    (body ++ rest).takeWhile f = body := by
  rw [List.takeWhile_append_of_pos hbody]
  cases rest with
  | nil => simp
  | cons c rest => simp [hrest c rfl]

theorem dropWhile_exact {f : Char → Bool} {body rest : List Char}
    (hbody : ∀ c ∈ body, f c = true) (hrest : ∀ c ∈ rest.head?, f c = false) :
    (body ++ rest).dropWhile f = rest := by
  rw [List.dropWhile_append_of_pos hbody]
  cases rest with
  | nil => rfl
  | cons c rest => simp [hrest c rfl]

end Text

namespace Literal

theorem Digits.exists_cons (ds : Digits) :
    ∃ c cs, ds.chars = c :: cs ∧ c.isDigit = true := by
  obtain ⟨c, cs, hcs⟩ := List.exists_cons_of_ne_nil ds.ne_nil
  exact ⟨c, cs, hcs, ds.isDigit c (by rw [hcs]; exact List.mem_cons_self)⟩

/-- A character that is no digit is another one than any of the digits. -/
theorem Digits.ne (ds : Digits) {c d : Char} (hc : c ∈ ds.chars) (hd : d.isDigit = false) :
    c ≠ d := by
  rintro rfl
  rw [ds.isDigit c hc] at hd
  cases hd

theorem Sign.mem_chars {s : Sign} {c : Char} (h : c ∈ s.chars) : c = '+' ∨ c = '-' := by
  cases s with
  | none => cases h
  | plus => exact .inl (List.mem_singleton.1 h)
  | minus => exact .inr (List.mem_singleton.1 h)

theorem Exponent.isMark_mark (e : Exponent) : (e.mark == 'e' || e.mark == 'E') = true := by
  rw [mark]
  cases e.capital with
  | false => rfl
  | true => rfl

theorem spanDigits_chars (ds : Digits) {rest : List Char}
    (h : ∀ c ∈ rest.head?, c.isDigit = false) :
    Decimal.spanDigits (ds.chars ++ rest) = (ds.chars, rest) := by
  rw [Decimal.spanDigits, Text.takeWhile_exact ds.isDigit h, Text.dropWhile_exact ds.isDigit h]

/-- A sign is read off in front of anything that has none. -/
theorem readSign_chars (s : Sign) {cs : List Char}
    (h : ∀ c ∈ cs.head?, c ≠ '+' ∧ c ≠ '-') :
    Decimal.readSign (s.chars ++ cs) = (s.isMinus, cs) := by
  cases s with
  | plus => rfl
  | minus => rfl
  | none =>
      cases cs with
      | nil => rfl
      | cons c cs =>
          obtain ⟨hplus, hminus⟩ := h c rfl
          change Decimal.readSign (c :: cs) = (false, c :: cs)
          unfold Decimal.readSign
          split
          · next heq => exact absurd (List.cons.inj heq).1 hminus
          · next heq => exact absurd (List.cons.inj heq).1 hplus
          · rfl

theorem unsigned_digits (ds : Digits) (rest : List Char) :
    ∀ c ∈ (ds.chars ++ rest).head?, c ≠ '+' ∧ c ≠ '-' := by
  obtain ⟨d, cs, hcs, hd⟩ := ds.exists_cons
  intro c hc
  rw [hcs] at hc
  obtain rfl := Option.some.inj hc
  have hmem : d ∈ ds.chars := by
    rw [hcs]
    exact List.mem_cons_self
  exact ⟨ds.ne hmem (by decide), ds.ne hmem (by decide)⟩

theorem unsigned_chars (m : Magnitude) : ∀ c ∈ m.chars.head?, c ≠ '+' ∧ c ≠ '-' := by
  cases m with
  | infinite =>
      rintro c ⟨⟩
      decide
  | nan =>
      rintro c ⟨⟩
      decide
  | number whole concise places exponent =>
      rw [Magnitude.chars, List.append_assoc]
      exact unsigned_digits whole _

/-! ## As a decimal -/

theorem readExponent_chars (exponent : Option Exponent) :
    Decimal.readExponent (Magnitude.exponentChars exponent) =
      some ((exponent.map Exponent.value).getD 0) := by
  cases exponent with
  | none => rfl
  | some e =>
      have hsign := readSign_chars e.sign (unsigned_digits e.digits [])
      rw [List.append_nil] at hsign
      have hne : e.digits.chars.isEmpty = false := by
        rw [List.isEmpty_eq_false_iff]
        exact e.digits.ne_nil
      have hall : e.digits.chars.all Char.isDigit = true := List.all_eq_true.2 e.digits.isDigit
      change Decimal.readExponent (e.mark :: (e.sign.chars ++ e.digits.chars)) = some e.value
      rw [Decimal.readExponent, if_pos e.isMark_mark, hsign]
      simp only [hne, hall, Bool.not_true, Bool.or_false, Bool.false_eq_true, if_false]
      rfl

/-- An exponent starts with its mark. -/
theorem mem_head?_exponentChars {exponent : Option Exponent} {c : Char}
    (h : c ∈ (Magnitude.exponentChars exponent).head?) : c = 'e' ∨ c = 'E' := by
  cases exponent with
  | none => cases h
  | some e =>
      obtain rfl := Option.some.inj h
      simpa using e.isMark_mark

theorem readNumeral_chars (whole : Digits) (places : Option Digits) (exponent : Option Exponent) :
    Decimal.readNumeral (whole.chars ++ Magnitude.placesChars places ++
        Magnitude.exponentChars exponent) =
      some (Magnitude.numeral whole places exponent) := by
  have hempty : whole.chars.isEmpty = false := by
    rw [List.isEmpty_eq_false_iff]
    exact whole.ne_nil
  have hexponent : ∀ c ∈ (Magnitude.exponentChars exponent).head?, c.isDigit = false := by
    intro c hc
    rcases mem_head?_exponentChars hc with rfl | rfl
    · rfl
    · rfl
  rw [List.append_assoc]
  unfold Decimal.readNumeral
  cases places with
  | some ds =>
      rw [spanDigits_chars whole (by rintro c ⟨⟩; rfl)]
      dsimp only [Magnitude.placesChars, List.cons_append]
      split
      · next heq =>
          cases heq
          rw [spanDigits_chars ds hexponent, hempty, readExponent_chars]
          rfl
      · next hno => exact absurd rfl (hno _)
  | none =>
      rw [Magnitude.placesChars, List.nil_append, spanDigits_chars whole hexponent]
      dsimp only
      split
      · next after heq =>
          rcases mem_head?_exponentChars (c := '.') (by rw [heq]; rfl) with h | h
          · cases h
          · cases h
      · rw [hempty, readExponent_chars]
        rfl

theorem toLower_of_isDigit {c : Char} (h : c.isDigit = true) : c.toLower = c := by
  have hle : 48 ≤ c.val.toNat ∧ c.val.toNat ≤ 57 := by
    simpa [Char.isDigit, UInt32.le_iff_toNat_le] using h
  refine dif_neg fun hupper => ?_
  have hge : 65 ≤ c.val.toNat := by simpa [UInt32.le_iff_toNat_le] using hupper.1
  omega

/-- What starts with a digit is none of the words. -/
theorem map_toLower_ne (ds : Digits) (rest : List Char) {word : String}
    (hword : ∀ c ∈ word.toList.head?, c.isDigit = false) :
    String.ofList ((ds.chars ++ rest).map Char.toLower) ≠ word := by
  obtain ⟨d, cs, hcs, hd⟩ := ds.exists_cons
  rintro rfl
  rw [hcs, String.toList_ofList, List.cons_append, List.map_cons, toLower_of_isDigit hd] at hword
  rw [hword d rfl] at hd
  cases hd

/-- **The double of a literal**: this is what its text is read as. -/
theorem read?_text (n : Literal) : Decimal.read? n.text = some n.bits := by
  obtain ⟨sign, magnitude⟩ := n
  rw [Decimal.read?, text, String.toList_ofList, chars,
    readSign_chars sign (unsigned_chars magnitude)]
  cases magnitude with
  | infinite => rfl
  | nan => rfl
  | number whole concise places exponent =>
      have hword (word : String) (h : ∀ c ∈ word.toList.head?, c.isDigit = false) :
          String.ofList ((Magnitude.number whole concise places exponent).chars.map Char.toLower) ≠
            word := by
        rw [Magnitude.chars, List.append_assoc]
        exact map_toLower_ne whole _ h
      have hinf := hword "inf" (by rintro c ⟨⟩; rfl)
      have hinfinity := hword "infinity" (by rintro c ⟨⟩; rfl)
      have hnan := hword "nan" (by rintro c ⟨⟩; rfl)
      simp only [hinf, hinfinity, hnan, decide_false, Bool.or_false, Bool.false_eq_true, if_false]
      rw [Magnitude.chars, readNumeral_chars]
      rfl

example : Decimal.read? "-2.5e-1" = some 0xbfd0000000000000 := by decide

/-! ## In a document -/

theorem go_digits {ds : List Char} (h : ∀ c ∈ ds, c.isDigit = true) (afterDigit : Bool)
    (hne : afterDigit = true ∨ ds ≠ []) (rest : List Char) :
    Toml.ungroup.go Char.isDigit afterDigit (ds ++ rest) =
      (Toml.ungroup.go Char.isDigit true rest).map (ds ++ ·) := by
  induction ds generalizing afterDigit with
  | nil =>
      obtain rfl := hne.resolve_right (· rfl)
      simp
  | cons d ds ih =>
      rw [List.cons_append, Toml.ungroup.go, if_pos (h d List.mem_cons_self),
        ih (fun c hc => h c (List.mem_cons_of_mem _ hc)) true (.inl rfl), Option.map_map]
      rfl

theorem ungroup_chars (ds : Digits) : Toml.ungroup Char.isDigit ds.chars = some ds.chars := by
  have h := go_digits ds.isDigit false (.inr ds.ne_nil) []
  rw [List.append_nil] at h
  rw [Toml.ungroup, h]
  simp [Toml.ungroup.go]

/-- Digits end in front of a point or a mark, and then they are not all that there is. -/
theorem ungroup_chars_append (ds : Digits) {c : Char} (hdigit : c.isDigit = false)
    (hunder : c ≠ '_') (rest : List Char) :
    Toml.ungroup Char.isDigit (ds.chars ++ c :: rest) = none := by
  rw [Toml.ungroup, go_digits ds.isDigit false (.inr ds.ne_nil), Toml.ungroup.go]
  simp [hdigit, hunder]

theorem readWhole_chars {whole : Digits}
    (concise : whole.chars.length = 1 ∨ whole.chars.head? ≠ some '0') :
    Toml.readWhole whole.chars = some whole.chars := by
  rw [Toml.readWhole, ungroup_chars]
  simpa using concise

/-- The other bases are marked by a letter behind a zero, where a literal has none. -/
theorem readInteger_eq {token : List Char}
    (h : ∀ c cs, token = '0' :: c :: cs → c ≠ 'x' ∧ c ≠ 'o' ∧ c ≠ 'b') :
    Toml.readInteger token = ((Toml.readWhole (Decimal.readSign token).2).map fun ds =>
      if (Decimal.readSign token).1 then -(Decimal.ofDigits ds : Int)
      else Decimal.ofDigits ds).filter Toml.inRange := by
  unfold Toml.readInteger
  dsimp only
  split
  · next cs => exact absurd rfl (h _ cs rfl).1
  · next cs => exact absurd rfl (h _ cs rfl).2.1
  · next cs => exact absurd rfl (h _ cs rfl).2.2
  · rfl

/-- Behind the digits of a literal there is a point or a mark, if anything. -/
theorem mem_head?_rest {places : Option Digits} {exponent : Option Exponent} {c : Char}
    (h : c ∈ (Magnitude.placesChars places ++ Magnitude.exponentChars exponent).head?) :
    c = '.' ∨ c = 'e' ∨ c = 'E' := by
  cases places with
  | some ds => exact .inl (Option.some.inj h).symm
  | none => exact .inr (mem_head?_exponentChars h)

theorem no_base_mark (n : Literal) {c : Char} {cs : List Char} (h : n.chars = '0' :: c :: cs) :
    c ≠ 'x' ∧ c ≠ 'o' ∧ c ≠ 'b' := by
  obtain ⟨sign, magnitude⟩ := n
  cases sign with
  | plus => cases h
  | minus => cases h
  | none =>
      cases magnitude with
      | infinite => cases h
      | nan => cases h
      | number whole concise places exponent =>
          change whole.chars ++ Magnitude.placesChars places ++ Magnitude.exponentChars exponent =
            '0' :: c :: cs at h
          obtain ⟨d, ds, hds, -⟩ := whole.exists_cons
          rw [hds, List.append_assoc] at h
          rw [hds] at concise
          obtain ⟨rfl, hrest⟩ := List.cons.inj h
          cases ds with
          | nil =>
              have hhead : c ∈ (Magnitude.placesChars places ++
                  Magnitude.exponentChars exponent).head? := congrArg List.head? hrest
              rcases mem_head?_rest hhead with rfl | rfl | rfl
              · decide
              · decide
              · decide
          | cons d' ds => simp at concise

theorem readInteger_chars (n : Literal) :
    Toml.readInteger n.chars = n.whole?.filter Toml.inRange := by
  rw [readInteger_eq fun c cs => n.no_base_mark]
  obtain ⟨sign, magnitude⟩ := n
  rw [chars, readSign_chars sign (unsigned_chars magnitude)]
  cases magnitude with
  | infinite => rfl
  | nan => rfl
  | number whole concise places exponent =>
      have hmore {c : Char} {rest : List Char}
          (h : Magnitude.placesChars places ++ Magnitude.exponentChars exponent = c :: rest) :
          Toml.readWhole (Magnitude.number whole concise places exponent).chars = none := by
        rw [Magnitude.chars, List.append_assoc, h, Toml.readWhole]
        rcases mem_head?_rest (congrArg List.head? h) with rfl | rfl | rfl
        · rw [ungroup_chars_append whole rfl (by decide)]
          rfl
        · rw [ungroup_chars_append whole rfl (by decide)]
          rfl
        · rw [ungroup_chars_append whole rfl (by decide)]
          rfl
      cases places with
      | some ds =>
          rw [hmore rfl]
          rfl
      | none =>
          cases exponent with
          | some e =>
              rw [hmore rfl]
              rfl
          | none =>
              have hchars : (Magnitude.number whole concise none none).chars = whole.chars := by
                simp [Magnitude.chars, Magnitude.placesChars, Magnitude.exponentChars]
              rw [hchars, readWhole_chars concise]
              rfl

theorem readExponentPart_chars (exponent : Option Exponent) :
    Toml.readExponentPart (Magnitude.exponentChars exponent) =
      some (Magnitude.exponentChars (exponent.map Exponent.small)) := by
  cases exponent with
  | none => rfl
  | some e =>
      have hsigns : ∀ c ∈ e.sign.chars, (c == '+' || c == '-') = true := by
        intro c hc
        rcases Sign.mem_chars hc with rfl | rfl
        · rfl
        · rfl
      have hdigits : ∀ c ∈ e.digits.chars.head?, (c == '+' || c == '-') = false := by
        intro c hc
        have hmem := List.mem_of_mem_head? hc
        simp [e.digits.ne hmem (d := '+') (by decide), e.digits.ne hmem (d := '-') (by decide)]
      have hspan := Text.takeWhile_exact hsigns hdigits
      have hone : e.sign.chars.length ≤ 1 := by
        cases e.sign with
        | none => decide
        | plus => decide
        | minus => decide
      change Toml.readExponentPart (e.mark :: (e.sign.chars ++ e.digits.chars)) = _
      rw [Toml.readExponentPart, if_pos e.isMark_mark]
      dsimp only
      rw [hspan, if_pos hone, List.drop_left, ungroup_chars]
      rfl

theorem readFloat_infinite (sign : Sign) :
    Toml.readFloat (chars ⟨sign, .infinite⟩) = some (bits ⟨sign, .infinite⟩) := by
  cases sign with
  | none => rfl
  | plus => rfl
  | minus => rfl

theorem readFloat_nan (sign : Sign) :
    Toml.readFloat (chars ⟨sign, .nan⟩) = some (bits ⟨sign, .nan⟩) := by
  cases sign with
  | none => rfl
  | plus => rfl
  | minus => rfl

theorem bits_unsigned (m : Magnitude) : bits ⟨.none, m⟩ = m.bits := by
  simp [bits, Sign.isMinus, Binary64.withSign]

/-- The letter of an exponent does not show in its value. -/
theorem bits_number_map (whole : Digits)
    (concise : whole.chars.length = 1 ∨ whole.chars.head? ≠ some '0')
    (places : Option Digits) (exponent : Option Exponent) :
    (Magnitude.number whole concise places (exponent.map Exponent.small)).bits =
      (Magnitude.number whole concise places exponent).bits := by
  cases exponent with
  | none => rfl
  | some e => rfl

theorem chars_number_ne {whole : Digits}
    (concise : whole.chars.length = 1 ∨ whole.chars.head? ≠ some '0') (places : Option Digits)
    (exponent : Option Exponent) {c : Char} (hc : c.isDigit = false) (cs : List Char) :
    (Magnitude.number whole concise places exponent).chars ≠ c :: cs := by
  obtain ⟨d, ds, hds, hd⟩ := whole.exists_cons
  rw [Magnitude.chars, hds]
  intro heq
  rw [(List.cons.inj heq).1, hc] at hd
  cases hd

/-- The text of a literal falls into digits, places and exponent. -/
theorem spans_number (whole : Digits) (places : Option Digits) (exponent : Option Exponent) :
    let isMark (c : Char) : Bool := c == 'e' || c == 'E'
    let number := whole.chars ++ Magnitude.placesChars places
    (number ++ Magnitude.exponentChars exponent).takeWhile (fun c => !isMark c) = number ∧
      (number ++ Magnitude.exponentChars exponent).dropWhile (fun c => !isMark c) =
        Magnitude.exponentChars exponent ∧
      number.takeWhile (· != '.') = whole.chars ∧
      number.dropWhile (· != '.') = Magnitude.placesChars places := by
  intro isMark number
  have hdigit {ds : Digits} {c : Char} (hc : c ∈ ds.chars) : (!isMark c) = true := by
    simp [isMark, ds.ne hc (d := 'e') (by decide), ds.ne hc (d := 'E') (by decide)]
  have hnumber : ∀ c ∈ number, (!isMark c) = true := by
    intro c hc
    rcases List.mem_append.1 hc with hwhole | hplaces
    · exact hdigit hwhole
    · cases places with
      | none => cases hplaces
      | some ds =>
          rcases List.mem_cons.1 hplaces with rfl | hc
          · rfl
          · exact hdigit hc
  have hexponent : ∀ c ∈ (Magnitude.exponentChars exponent).head?, (!isMark c) = false := by
    intro c hc
    rcases mem_head?_exponentChars hc with rfl | rfl
    · rfl
    · rfl
  have hwhole : ∀ c ∈ whole.chars, (c != '.') = true := fun c hc =>
    bne_iff_ne.2 (whole.ne hc (by decide))
  have hplaces : ∀ c ∈ (Magnitude.placesChars places).head?, (c != '.') = false := by
    intro c hc
    cases places with
    | none => cases hc
    | some ds =>
        obtain rfl := Option.some.inj hc
        rfl
  exact ⟨Text.takeWhile_exact hnumber hexponent, Text.dropWhile_exact hnumber hexponent,
    Text.takeWhile_exact hwhole hplaces, Text.dropWhile_exact hwhole hplaces⟩

theorem readFloat_number (sign : Sign) (whole : Digits)
    (concise : whole.chars.length = 1 ∨ whole.chars.head? ≠ some '0')
    (places : Option Digits) (exponent : Option Exponent) :
    Toml.readFloat (chars ⟨sign, .number whole concise places exponent⟩) =
      if places.isNone && exponent.isNone then none
      else if (Magnitude.number whole concise places exponent).bits == Binary64.infinity &&
        !sign.isMinus then none
      else some (bits ⟨sign, .number whole concise places exponent⟩) := by
  obtain ⟨hnumber, hexponent, hwhole, hplaces⟩ := spans_number whole places exponent
  have hsign := readSign_chars sign (unsigned_chars (.number whole concise places exponent))
  have hinf := chars_number_ne concise places exponent (c := 'i') rfl ['n', 'f']
  have hnan := chars_number_ne concise places exponent (c := 'n') rfl ['a', 'n']
  -- the parts are put together again, and read with a small letter
  have hread : Decimal.read? (String.ofList (whole.chars ++ Magnitude.placesChars places ++
      Magnitude.exponentChars (exponent.map Exponent.small))) =
      some (Magnitude.number whole concise places exponent).bits := by
    rw [← bits_number_map, ← bits_unsigned]
    exact read?_text ⟨.none, .number whole concise places (exponent.map Exponent.small)⟩
  unfold Toml.readFloat
  rw [chars, hsign]
  dsimp only
  rw [if_neg (by simpa using hinf), if_neg (by simpa using hnan), Magnitude.chars, hnumber,
    hexponent, readExponentPart_chars, hwhole, hplaces, readWhole_chars concise]
  cases places with
  | some ds =>
      dsimp only [Magnitude.placesChars] at hread ⊢
      rw [ungroup_chars]
      simp only [Option.bind_eq_bind, Option.bind_some, Option.map_some, hread]
      rfl
  | none =>
      cases exponent with
      | none => rfl
      | some e =>
          dsimp only [Magnitude.placesChars] at hread ⊢
          rw [if_neg (by rintro ⟨⟩)]
          simp only [Option.bind_eq_bind, Option.bind_some, hread]
          rfl

theorem chars_ne (n : Literal) {c : Char} (hc : c = 't' ∨ c = 'f') (cs : List Char) :
    n.chars ≠ c :: cs := by
  obtain ⟨sign, magnitude⟩ := n
  intro heq
  cases sign with
  | plus =>
      obtain rfl : '+' = c := (List.cons.inj heq).1
      exact absurd hc (by decide)
  | minus =>
      obtain rfl : '-' = c := (List.cons.inj heq).1
      exact absurd hc (by decide)
  | none =>
      cases magnitude with
      | infinite =>
          obtain rfl : 'i' = c := (List.cons.inj heq).1
          exact absurd hc (by decide)
      | nan =>
          obtain rfl : 'n' = c := (List.cons.inj heq).1
          exact absurd hc (by decide)
      | number whole concise places exponent =>
          have hdigit : c.isDigit = false := by
            rcases hc with rfl | rfl
            · rfl
            · rfl
          exact chars_number_ne concise places exponent hdigit cs heq

theorem readFloat_chars (n : Literal) :
    Toml.readFloat n.chars =
      if n.whole?.isSome || n.isTooLarge then none else some n.bits := by
  obtain ⟨sign, magnitude⟩ := n
  cases magnitude with
  | infinite => exact readFloat_infinite sign
  | nan => exact readFloat_nan sign
  | number whole concise places exponent =>
      rw [readFloat_number]
      cases places with
      | some ds => rfl
      | none =>
          cases exponent with
          | some e => rfl
          | none => rfl

/-- **A literal in a document**: this is the scalar that it is taken for. -/
theorem readToken_chars (n : Literal) : Toml.readToken n.chars = n.scalar? := by
  have htrue := n.chars_ne (.inl rfl) ['r', 'u', 'e']
  have hfalse := n.chars_ne (.inr rfl) ['a', 'l', 's', 'e']
  rw [Toml.readToken, if_neg (by simpa using htrue), if_neg (by simpa using hfalse),
    readInteger_chars, readFloat_chars, scalar?]
  cases n.whole? with
  | none =>
      cases n.isTooLarge with
      | false => rfl
      | true => rfl
  | some i =>
      cases hrange : Toml.inRange i with
      | false => simp [Option.filter, hrange]
      | true => simp [Option.filter, hrange]

/-! ## The characters of a literal -/

theorem isTokenChar_of_isDigit {c : Char} (h : c.isDigit = true) : Toml.isTokenChar c = true := by
  simp [Toml.isTokenChar, Char.isAlphanum, h]

theorem isTokenChar_of_mem_sign {s : Sign} {c : Char} (h : c ∈ s.chars) :
    Toml.isTokenChar c = true := by
  rcases Sign.mem_chars h with rfl | rfl
  · rfl
  · rfl

theorem isTokenChar_of_mem_exponentChars {exponent : Option Exponent} {c : Char}
    (h : c ∈ Magnitude.exponentChars exponent) : Toml.isTokenChar c = true := by
  cases exponent with
  | none => cases h
  | some e =>
      rcases List.mem_cons.1 h with rfl | h
      · have hmark : e.mark = 'e' ∨ e.mark = 'E' := by simpa using e.isMark_mark
        rcases hmark with h | h
        · rw [h]
          rfl
        · rw [h]
          rfl
      · rcases List.mem_append.1 h with h | h
        · exact isTokenChar_of_mem_sign h
        · exact isTokenChar_of_isDigit (e.digits.isDigit c h)

theorem isTokenChar_of_mem_magnitude {m : Magnitude} {c : Char} (h : c ∈ m.chars) :
    Toml.isTokenChar c = true := by
  cases m with
  | infinite =>
      have hword : ['i', 'n', 'f'].all Toml.isTokenChar = true := by decide
      exact List.all_eq_true.1 hword c h
  | nan =>
      have hword : ['n', 'a', 'n'].all Toml.isTokenChar = true := by decide
      exact List.all_eq_true.1 hword c h
  | number whole concise places exponent =>
      rcases List.mem_append.1 h with h | h
      · rcases List.mem_append.1 h with h | h
        · exact isTokenChar_of_isDigit (whole.isDigit c h)
        · cases places with
          | none => cases h
          | some ds =>
              rcases List.mem_cons.1 h with rfl | h
              · rfl
              · exact isTokenChar_of_isDigit (ds.isDigit c h)
      · exact isTokenChar_of_mem_exponentChars h

/-- A literal is one word. -/
theorem isTokenChar_of_mem (n : Literal) {c : Char} (h : c ∈ n.chars) :
    Toml.isTokenChar c = true := by
  rcases List.mem_append.1 h with h | h
  · exact isTokenChar_of_mem_sign h
  · exact isTokenChar_of_mem_magnitude h

theorem chars_ne_nil (n : Literal) : n.chars ≠ [] := by
  obtain ⟨sign, magnitude⟩ := n
  rw [chars, ne_eq, List.append_eq_nil_iff, not_and]
  intro _
  cases magnitude with
  | infinite => exact List.cons_ne_nil _ _
  | nan => exact List.cons_ne_nil _ _
  | number whole concise places exponent => simp [Magnitude.chars, whole.ne_nil]

end Literal
end Loopsmith
