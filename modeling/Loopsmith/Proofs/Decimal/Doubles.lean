import Loopsmith.Decimal.Binary64
import Loopsmith.Loop.Basic
import Mathlib.Data.List.Basic

/-!
# Comparing doubles

A double compares equal to itself unless it is no number at all.  What it is can be seen from its
bit pattern: a pattern whose exponent has all its bits set is infinite or no number, and any other
is finite.  So a finite pattern gives a threshold that is equal to itself (`beq_ofBits_self`), and a
pattern that is not finite gives one that differs from the default (`beq_default_ofBits`).

Comparison goes by what a double unpacks to, and a double is made by packing what a pattern unpacks
to.  The way through is that packing makes no number out of nothing but that
(`unpack_pack_ne_notANumber`).
-/

namespace Loopsmith
namespace Binary64

open Float.Model (Format UnpackedFloat)
open Float.Model.UnpackedFloat

/-! ## Finite patterns -/

/-- The pattern of a finite double. -/
def IsFinite (bits : UInt64) : Prop :=
  biased bits ≠ 2047

instance (bits : UInt64) : Decidable (IsFinite bits) :=
  inferInstanceAs (Decidable (biased bits ≠ 2047))

theorem unpackExponent_eq_iff (bits : UInt64) :
    @unpackExponent .binary64 bits.toBitVec = -1#_ ↔ ¬ IsFinite bits := by
  have hvalue : (@unpackExponent .binary64 bits.toBitVec).toNat = biased bits := by
    change (bits.toNat >>> 52) % 2 ^ 11 = biased bits
    rw [Nat.shiftRight_eq_div_pow]
    rfl
  rw [IsFinite, not_not, ← hvalue, ← BitVec.toNat_inj]
  rfl

/-- What is no number has all the bits of its exponent set. -/
theorem unpack_ne_notANumber_of_exponent {b : BitVec Format.binary64.numBits}
    (h : unpackExponent b ≠ -1#_) : unpack .binary64 b ≠ .notANumber := by
  refine ne_of_eq_of_ne (if_neg h) ?_
  by_cases hexponent : unpackExponent b = 0#_
  · refine ne_of_eq_of_ne (if_pos hexponent) ?_
    by_cases hmantissa : unpackMantissa b = 0#_
    · exact ne_of_eq_of_ne (dif_pos hmantissa) (by rintro ⟨⟩)
    · exact ne_of_eq_of_ne (dif_neg hmantissa) (by rintro ⟨⟩)
  · exact ne_of_eq_of_ne (if_neg hexponent) (by rintro ⟨⟩)

theorem unpack_ne_notANumber {bits : UInt64} (h : IsFinite bits) :
    unpack .binary64 bits.toBitVec ≠ .notANumber :=
  unpack_ne_notANumber_of_exponent fun heq => (unpackExponent_eq_iff bits).1 heq h

theorem unpack_of_not_isFinite {bits : UInt64} (h : ¬ IsFinite bits) :
    (∃ s, unpack .binary64 bits.toBitVec = .infinity s) ∨
      unpack .binary64 bits.toBitVec = .notANumber := by
  unfold unpack
  dsimp only
  rw [if_pos ((unpackExponent_eq_iff bits).2 h)]
  split
  · exact .inl ⟨_, rfl⟩
  · exact .inr rfl

/-! ## Packing -/

theorem unpack_packComponents_ne_notANumber {s : Sign}
    {exponent : BitVec Format.binary64.exponentBits}
    {mantissa : BitVec Format.binary64.mantissaBitsWithoutImplicit} (h : exponent ≠ -1#_) :
    unpack .binary64 (packComponents .binary64 s exponent mantissa) ≠ .notANumber :=
  unpack_ne_notANumber_of_exponent (by rwa [unpackExponent_packComponents])

theorem unpack_pack_infinity (s : Sign) :
    unpack .binary64 (pack .binary64 (.infinity s)) = .infinity s := by
  cases s with
  | positive => rfl
  | negative => rfl

/-- What is a number is one after it has been packed. -/
theorem unpack_pack_ne_notANumber {f : UnpackedFloat} (h : f ≠ .notANumber) :
    unpack .binary64 (pack .binary64 f) ≠ .notANumber := by
  cases f with
  | notANumber => exact absurd rfl h
  | infinity s =>
      rw [unpack_pack_infinity]
      rintro ⟨⟩
  | zero s => exact unpack_packComponents_ne_notANumber (by decide)
  | finite s m e hm =>
      unfold pack
      dsimp only
      split
      · have hinfinity := unpack_pack_infinity s
        rw [show packedInfinity .binary64 s = pack .binary64 (.infinity s) from rfl, hinfinity]
        rintro ⟨⟩
      · next hsmall =>
          split
          · refine unpack_packComponents_ne_notANumber fun heq => ?_
            have hvalue := congrArg BitVec.toNat heq
            rw [BitVec.toNat_ofNat] at hvalue
            change _ % 2 ^ 11 = 2047 at hvalue
            change ¬ 2 ^ 11 ≤ _ at hsmall
            omega
          · exact unpack_packComponents_ne_notANumber (by decide)

/-! ## Comparing -/

theorem beq_self_of_ne_notANumber {f : UnpackedFloat} (h : f ≠ .notANumber) :
    f.beq f = true := by
  unfold UnpackedFloat.beq
  cases f with
  | notANumber => exact absurd rfl h
  | infinity s => cases s <;> rfl
  | zero s => cases s <;> rfl
  | finite s m e hm =>
      unfold UnpackedFloat.compare
      cases s with
      | positive =>
          dsimp only
          rw [Std.ReflOrd.compare_self, Std.ReflOrd.compare_self]
          rfl
      | negative =>
          dsimp only
          rw [Std.ReflOrd.compare_self, Std.ReflOrd.compare_self]
          rfl

/-- A finite double is equal to itself. -/
theorem beq_ofBits_self {bits : UInt64} (h : IsFinite bits) :
    (Float.ofBits bits == Float.ofBits bits) = true :=
  beq_self_of_ne_notANumber (unpack_pack_ne_notANumber (unpack_ne_notANumber h))

/-- A double that is not finite differs from the default threshold. -/
theorem beq_default_ofBits {bits : UInt64} (h : ¬ IsFinite bits) :
    (Policy.defaultThreshold == Float.ofBits bits) = false := by
  have hmodel : Float.ofBits bits = ⟨Float.Model.pack (unpack .binary64 bits.toBitVec)⟩ := rfl
  rw [hmodel]
  rcases unpack_of_not_isFinite h with ⟨s, hs⟩ | hnan
  · rw [hs]
    cases s with
    | positive => decide +kernel
    | negative => decide +kernel
  · rw [hnan]
    decide +kernel

end Binary64
end Loopsmith
