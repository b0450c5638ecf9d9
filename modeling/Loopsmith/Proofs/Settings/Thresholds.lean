import Loopsmith.Proofs.Decimal.Doubles
import Loopsmith.Proofs.Decimal.Literals
import Loopsmith.Proofs.Text.Fields
import Loopsmith.Settings.Document
import Loopsmith.Settings.Environment
import Mathlib.Tactic.Ring

/-!
# One threshold, read twice

A number literal may stand in the threshold's variable and behind the threshold's key.  A variable
whose number is not finite is as good as no number, and the default steps in (`fromVariable`).  A
document has no such rule: it keeps what it reads, infinity included, and has reasons of its own for
refusing a literal (`fromDocument?`).

So the two thresholds are equal for the literals that fit both: those with a finite value that, if
they are written as integers, are integers of 64 bits (`fromVariable_same_iff`).  The case with work
in it is the integer.  A variable reads its digits as a decimal, a document turns its value into a
double, and the two meet because an integer of 64 bits has few enough digits for the decimal reader
to do its arithmetic in full (`bits_whole`).  They do not meet in the sign of zero, which an integer
has not got, but zeros of either sign are equal.
-/

namespace Loopsmith

/-! ## Digits without needless zeros -/

namespace Decimal

theorem mul_pow_le_foldl (cs : List Char) (n : Nat) :
    n * 10 ^ cs.length ≤ cs.foldl (fun n c => 10 * n + (c.toNat - 48)) n := by
  induction cs generalizing n with
  | nil => simp
  | cons c cs ih =>
      calc n * 10 ^ (cs.length + 1) = 10 * n * 10 ^ cs.length := by ring
        _ ≤ (10 * n + (c.toNat - 48)) * 10 ^ cs.length :=
            Nat.mul_le_mul_right _ (Nat.le_add_right ..)
        _ ≤ _ := ih _

theorem pow_le_ofDigits {c : Char} {cs : List Char} (hdigit : c.isDigit = true) (hzero : c ≠ '0') :
    10 ^ cs.length ≤ ofDigits (c :: cs) := by
  have hvalue : 1 ≤ c.toNat - 48 := by
    have hlow : 48 ≤ c.toNat := by
      simp only [Char.isDigit, Bool.and_eq_true, decide_eq_true_eq] at hdigit
      exact hdigit.1
    have hne : c.toNat ≠ 48 := fun h => hzero (Char.toNat_inj.1 h)
    omega
  calc 10 ^ cs.length ≤ (c.toNat - 48) * 10 ^ cs.length := Nat.le_mul_of_pos_left _ hvalue
    _ ≤ cs.foldl (fun n c => 10 * n + (c.toNat - 48)) (c.toNat - 48) := mul_pow_le_foldl ..
    _ = ofDigits (c :: cs) := by simp [ofDigits]

end Decimal

theorem Toml.inRange_iff (i : Int) : inRange i = true ↔ -(2 ^ 63) ≤ i ∧ i < 2 ^ 63 := by
  have hmin : Int64.minValue.toInt = -(2 ^ 63) := by decide
  have hmax : Int64.maxValue.toInt = 2 ^ 63 - 1 := by decide
  rw [inRange, hmin, hmax, Bool.and_eq_true, decide_eq_true_eq, decide_eq_true_eq]
  omega

namespace Literal

open Binary64 (IsFinite)

/-- A whole number of no more than 64 bits is read without a shortcut. -/
theorem bits_whole {whole : Digits}
    (concise : whole.chars.length = 1 ∨ whole.chars.head? ≠ some '0')
    (h : Decimal.ofDigits whole.chars ≤ 2 ^ 63) :
    (Magnitude.number whole concise none none).bits =
      Binary64.ofRatio (Decimal.ofDigits whole.chars) 1 := by
  obtain ⟨c, cs, hcs, hc⟩ := whole.exists_cons
  have hnumeral : Magnitude.numeral whole none none = ⟨c :: cs, 0⟩ := by
    simp [Magnitude.numeral, hcs]
  rw [Magnitude.bits, hnumeral]
  rw [hcs] at h concise ⊢
  by_cases hzero : c = '0'
  · -- A zero at the head stands alone.
    have hnil : cs = [] := by simpa [hzero] using concise
    subst hzero hnil
    decide
  · have hdrop : (c :: cs).dropWhile (· == '0') = c :: cs := by simp [hzero]
    have hlength : cs.length < 19 := by
      by_contra hlong
      have hpow : 10 ^ 19 ≤ 10 ^ cs.length := Nat.pow_le_pow_right (by omega) (by omega)
      have hle : 10 ^ cs.length ≤ Decimal.ofDigits (c :: cs) := Decimal.pow_le_ofDigits hc hzero
      omega
    rw [Decimal.Numeral.toBits, hdrop]
    dsimp only
    rw [if_neg (by simp; omega), if_neg (by simp; omega), if_neg (by omega)]
    simp

/-! ## The two thresholds -/

/-- The threshold that a variable with this literal asks for. -/
def fromVariable (n : Literal) : Float :=
  if IsFinite n.bits then Float.ofBits n.bits else Policy.defaultThreshold

/-- The threshold that a document with this literal sets, if it takes the literal. -/
def fromDocument? (n : Literal) : Option Float :=
  match n.scalar? with
  | some (.float bits) => some (Float.ofBits bits)
  | some (.integer i) => some (Settings.Setting.wholeThreshold i)
  | _ => none

/-- A literal that a variable and a document can both hold. -/
structure Fits (n : Literal) : Prop where
  isFinite : IsFinite n.bits
  inRange : ∀ i, n.whole? = some i → Toml.inRange i = true

theorem not_isBlank_of_mem (n : Literal) {c : Char} (h : c ∈ n.chars) : Text.isBlank c = false := by
  have htoken := n.isTokenChar_of_mem h
  simp only [Toml.isTokenChar, Bool.or_eq_true, beq_iff_eq] at htoken
  rcases htoken with (((halnum | rfl) | rfl) | rfl) | rfl
  · exact not_isBlank_of_isNameChar (by simp [isNameChar, halnum])
  · decide
  · decide
  · decide
  · decide

theorem trim_text (n : Literal) : Text.trim n.text.toList = n.chars := by
  rw [text, String.toList_ofList]
  exact Text.trim_eq_self_of_forall fun c hc => n.not_isBlank_of_mem hc

theorem readPolicy_text (n : Literal) :
    (Settings.readPolicy (some n.text)).1 = .below n.fromVariable := by
  have hblank : Text.isBlankText n.text = false := by
    rw [Text.isBlankText, trim_text]
    exact List.isEmpty_eq_false_iff.2 n.chars_ne_nil
  have hread : Settings.readFinite (Text.trimmed n.text) =
      if IsFinite n.bits then some (Float.ofBits n.bits) else none := by
    rw [Settings.readFinite, Text.trimmed, trim_text, ← text, read?_text]
    by_cases hfinite : IsFinite n.bits
    · rw [if_pos hfinite, Option.filter_some, if_pos (bne_iff_ne.2 hfinite), Option.map_some]
    · rw [if_neg hfinite, Option.filter_some, if_neg (fun h => hfinite (bne_iff_ne.1 h)),
        Option.map_none]
  rw [Settings.readPolicy, if_neg (by simp [hblank]), hread, fromVariable]
  by_cases hfinite : IsFinite n.bits
  · rw [if_pos hfinite, if_pos hfinite]
  · rw [if_neg hfinite, if_neg hfinite]

/-- A value that a document takes as it is meets the variable's if it is finite. -/
theorem fromVariable_same_ofBits_iff (n : Literal) :
    (n.fromVariable == Float.ofBits n.bits) = true ↔ IsFinite n.bits := by
  rw [fromVariable]
  by_cases hfinite : IsFinite n.bits
  · rw [if_pos hfinite]
    exact iff_of_true (Binary64.beq_ofBits_self hfinite) hfinite
  · rw [if_neg hfinite, Binary64.beq_default_ofBits hfinite]
    exact iff_of_false Bool.false_ne_true hfinite

theorem exists_of_whole?_eq_some {n : Literal} {i : Int} (h : n.whole? = some i) :
    ∃ sign whole concise, n = ⟨sign, .number whole concise none none⟩ := by
  obtain ⟨sign, magnitude⟩ := n
  unfold whole? at h
  split at h
  · next heq => exact ⟨sign, _, _, by rw [← heq]⟩
  · cases h

/-- The double that an integer of 64 bits stands for, up to the sign of zero. -/
theorem fromVariable_same_wholeThreshold_iff {n : Literal} {i : Int} (h : n.whole? = some i)
    (hrange : Toml.inRange i = true) :
    (n.fromVariable == Settings.Setting.wholeThreshold i) = true ↔ IsFinite n.bits := by
  obtain ⟨sign, whole, concise, rfl⟩ := exists_of_whole?_eq_some h
  have hi : (if sign.isMinus then -(Decimal.ofDigits whole.chars : Int)
      else Decimal.ofDigits whole.chars) = i := Option.some.inj h
  have hbound : Decimal.ofDigits whole.chars ≤ 2 ^ 63 ∧
      i.natAbs = Decimal.ofDigits whole.chars := by
    rw [Toml.inRange_iff] at hrange
    split at hi <;> omega
  have hbits : bits ⟨sign, .number whole concise none none⟩ =
      Binary64.withSign sign.isMinus (Binary64.ofRatio i.natAbs 1) := by
    rw [bits, bits_whole concise hbound.1, hbound.2]
  by_cases hzero : i = 0
  · -- The document has lost the sign, and it does not matter.
    subst hzero
    rw [fromVariable, hbits, Settings.Setting.wholeThreshold]
    cases sign.isMinus with
    | false => decide +kernel
    | true => decide +kernel
  · have hnegative : decide (i < 0) = sign.isMinus := by
      cases hsign : sign.isMinus with
      | false =>
          rw [hsign, if_neg Bool.false_ne_true] at hi
          exact decide_eq_false (by omega)
      | true =>
          rw [hsign, if_pos rfl] at hi
          exact decide_eq_true (by omega)
    rw [Settings.Setting.wholeThreshold, hnegative, ← hbits]
    exact fromVariable_same_ofBits_iff _

/-- A literal that is too large for a document is not finite. -/
theorem not_isFinite_of_isTooLarge {n : Literal} (h : n.isTooLarge = true) :
    ¬ IsFinite n.bits := by
  have hinfinite : n.magnitude.bits = Binary64.infinity ∧ n.sign.isMinus = false := by
    unfold isTooLarge at h
    split at h
    · simpa using h
    · cases h
  rw [bits, hinfinite.1, hinfinite.2]
  decide

/-- **The literals for which a variable and a document give the same threshold.** -/
theorem fromVariable_same_iff (n : Literal) :
    (∃ x, n.fromDocument? = some x ∧ (n.fromVariable == x) = true) ↔ n.Fits := by
  rw [fromDocument?, scalar?]
  cases hwhole : n.whole? with
  | some i =>
      dsimp only
      by_cases hrange : Toml.inRange i = true
      · rw [if_pos hrange]
        simp only [Option.some.injEq, exists_eq_left']
        rw [fromVariable_same_wholeThreshold_iff hwhole hrange]
        refine ⟨fun hfinite => ⟨hfinite, fun j hj => ?_⟩, Fits.isFinite⟩
        rw [hwhole] at hj
        cases hj
        exact hrange
      · rw [if_neg hrange]
        exact iff_of_false (by rintro ⟨x, ⟨⟩, -⟩) fun hfits => hrange (hfits.inRange i hwhole)
  | none =>
      dsimp only
      by_cases hlarge : n.isTooLarge = true
      · rw [if_pos hlarge]
        exact iff_of_false (by rintro ⟨x, ⟨⟩, -⟩) fun hfits =>
          not_isFinite_of_isTooLarge hlarge hfits.isFinite
      · rw [if_neg hlarge]
        simp only [Option.some.injEq, exists_eq_left']
        rw [fromVariable_same_ofBits_iff]
        refine ⟨fun hfinite => ⟨hfinite, fun i hi => ?_⟩, Fits.isFinite⟩
        rw [hwhole] at hi
        cases hi

end Literal
end Loopsmith
