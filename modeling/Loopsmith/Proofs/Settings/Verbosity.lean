import Loopsmith.Proofs.Text.Fields
import Loopsmith.Settings.Environment

/-!
# The level that a number asks for

The more verbose a number, the more talkative the level: warnings for `0`, then information, then
debugging, and everything from `3` on.  But a verbosity is read as a number of eight bits, and a
numeral beyond these is no number to the reader.  It has the level of a variable that is set to a
word, which is that of `1`.

So the level grows with the number up to `255` and falls back behind it.
`level_monotone_iff` says between which numbers the order is kept, and which ones ask for
everything.
-/

namespace Loopsmith

/-! ## Numbers in decimal -/

/-- The number `n` in decimal, with blanks around it or none.  Zeros may stand in front. -/
inductive WrittenAs (n : Nat) (raw : String) : Prop where
  | intro (before after : List Char) (zeros : Nat)
      (hbefore : ∀ c ∈ before, Text.isBlank c = true) (hafter : ∀ c ∈ after, Text.isBlank c = true)
      (hraw : raw.toList = before ++ (List.replicate zeros '0' ++ Nat.toDigits 10 n) ++ after)

theorem writtenAs_toString (n : Nat) : WrittenAs n (toString n) := by
  refine .intro [] [] 0 (by simp) (by simp) ?_
  rw [Nat.toString_eq_ofList_toDigits, String.toList_ofList]
  simp

namespace Decimal

theorem ofDigits_toDigits (n : Nat) : ofDigits (Nat.toDigits 10 n) = n :=
  Nat.ofDigitChars_ten_toDigits

theorem ofDigits_zeros_append (zeros : Nat) (cs : List Char) :
    ofDigits (List.replicate zeros '0' ++ cs) = ofDigits cs := by
  induction zeros with
  | zero => rfl
  | succ zeros ih => exact ih

theorem isDigit_of_mem_zeros_append {zeros n : Nat} {c : Char}
    (h : c ∈ List.replicate zeros '0' ++ Nat.toDigits 10 n) : c.isDigit = true := by
  rcases List.mem_append.1 h with h | h
  · rw [List.eq_of_mem_replicate h]
    rfl
  · exact Nat.isDigit_of_mem_toDigits (by omega) (by omega) h

end Decimal

/-- Digits are read as the number they spell, unless it is too large. -/
theorem readBounded_ofList {cs : List Char} (hne : cs ≠ []) (hdigit : ∀ c ∈ cs, c.isDigit = true)
    (largest : Nat) : readBounded largest (String.ofList cs) =
      if Decimal.ofDigits cs ≤ largest then some (Decimal.ofDigits cs) else none := by
  unfold readBounded
  rw [String.toList_ofList]
  split
  · next rest =>
      exact absurd (hdigit '+' List.mem_cons_self) (by decide)
  · rw [if_neg (by simpa [hne] using hdigit), Option.filter_some]
    simp only [decide_eq_true_eq]

namespace LogSettings

theorem readVerbosity_of_writtenAs {n : Nat} {raw : String} (h : WrittenAs n raw) :
    readVerbosity raw = if n ≤ 255 then UInt8.ofNat n else 1 := by
  obtain ⟨before, after, zeros, hbefore, hafter, hraw⟩ := h
  have hvalue := (Decimal.ofDigits_zeros_append zeros _).trans (Decimal.ofDigits_toDigits n)
  have hdigit : ∀ c ∈ List.replicate zeros '0' ++ Nat.toDigits 10 n, c.isDigit = true :=
    fun c hc => Decimal.isDigit_of_mem_zeros_append hc
  have hne : List.replicate zeros '0' ++ Nat.toDigits 10 n ≠ [] := by
    simp [Nat.toDigits_ne_nil]
  generalize List.replicate zeros '0' ++ Nat.toDigits 10 n = cs at hraw hvalue hdigit hne
  have hself : Text.trim cs = cs := Text.trim_eq_self_of_forall fun c hc =>
    not_isBlank_of_isNameChar (by simp [isNameChar, Char.isAlphanum, hdigit c hc])
  rw [readVerbosity, Text.trimmed, hraw, Text.trim_padded hbefore hafter hself,
    readBounded_ofList hne hdigit, hvalue]
  by_cases hbound : n ≤ 255
  · rw [if_pos hbound, if_pos hbound]
  · rw [if_neg hbound, if_neg hbound]

end LogSettings

/-! ## Levels -/

theorem Level.rank_ofVerbosity (n : Nat) : (ofVerbosity n).rank = 2 + min n 3 := by
  match n with
  | 0 => rfl
  | 1 => rfl
  | 2 => rfl
  | n + 3 =>
      rw [Nat.min_eq_right (Nat.le_add_left 3 n)]
      rfl

theorem Level.eq_trace_iff (l : Level) : l = trace ↔ l.rank = 5 := by
  cases l <;> simp [rank]

namespace LogSettings

/-- The level of a number is that of `1` if the number does not fit into eight bits. -/
theorem rank_level_of_writtenAs {env : Environment} {raw : String} {n : Nat}
    (henv : env "DOPING_VERBOSE" = some raw) (h : WrittenAs n raw) :
    (ofEnvironment env).level.rank = 2 + min (if n ≤ 255 then n else 1) 3 := by
  have hverbosity : (ofEnvironment env).verbosity.toNat = if n ≤ 255 then n else 1 := by
    rw [ofEnvironment, henv, Option.map_some, Option.getD_some, readVerbosity_of_writtenAs h]
    split
    · next hbound => exact UInt8.toNat_ofNat_of_lt' (Nat.lt_succ_of_le hbound)
    · rfl
  rw [level, Level.rank_ofVerbosity, hverbosity]

/-- Without a directive the filter is the name of the level. -/
theorem filter_eq_trace_iff {s : LogSettings} (h : s.directive = none) :
    s.filter = "trace" ↔ s.level = .trace := by
  rw [filter, h, Option.getD_none]
  cases s.level <;> decide

/-- **Up to `255` the level grows with the number, and beyond it falls back.**  Let `m ≤ n` be
numbers in decimal.  The level of `n` is at least as talkative as that of `m` exactly if `n` fits
into eight bits, or `m` asks for no more than information, or neither fits.  The level of `n` is
`trace` exactly if `n` is at least `3` and fits, and without a directive so is the filter. -/
theorem level_monotone_iff {m n : Nat} (hle : m ≤ n) {env env' : Environment} {raw raw' : String}
    (henv : env "DOPING_VERBOSE" = some raw) (henv' : env' "DOPING_VERBOSE" = some raw')
    (hm : WrittenAs m raw) (hn : WrittenAs n raw') :
    ((ofEnvironment env).level.rank ≤ (ofEnvironment env').level.rank ↔
        n ≤ 255 ∨ m ≤ 1 ∨ 256 ≤ m) ∧
      ((ofEnvironment env').level = .trace ↔ 3 ≤ n ∧ n ≤ 255) ∧
      ((ofEnvironment env').directive = none →
        ((ofEnvironment env').filter = "trace" ↔ 3 ≤ n ∧ n ≤ 255)) := by
  have hrank := rank_level_of_writtenAs henv hm
  have hrank' := rank_level_of_writtenAs henv' hn
  have htrace : (ofEnvironment env').level = .trace ↔ 3 ≤ n ∧ n ≤ 255 := by
    rw [Level.eq_trace_iff, hrank']
    split <;> omega
  refine ⟨?_, htrace, fun hnone => (filter_eq_trace_iff hnone).trans htrace⟩
  rw [hrank, hrank']
  split <;> split <;> omega

/-- An environment in which nothing but the verbosity is set. -/
def verbose (raw : String) : Environment := fun name =>
  [("DOPING_VERBOSE", raw)].lookup name

/-- The last number that asks for everything, among zeros and wide blanks. -/
theorem level_monotone_iff_last :
    WrittenAs 2 "\t2" ∧ WrittenAs 255 "\u3000 00255\n" ∧
      (ofEnvironment (verbose "\t2")).level.rank ≤
        (ofEnvironment (verbose "\u3000 00255\n")).level.rank ∧
      (ofEnvironment (verbose "\u3000 00255\n")).filter = "trace" := by
  have hm : WrittenAs 2 "\t2" :=
    .intro ['\t'] [] 0 (List.all_eq_true.1 (by decide)) (List.all_eq_true.1 (by decide)) (by decide)
  have hn : WrittenAs 255 "\u3000 00255\n" :=
    .intro ['\u3000', ' '] ['\n'] 2 (List.all_eq_true.1 (by decide))
      (List.all_eq_true.1 (by decide)) (by decide)
  obtain ⟨hle, -, hfilter⟩ := @level_monotone_iff 2 255 (by decide) (verbose "\t2")
    (verbose "\u3000 00255\n") _ _ rfl rfl hm hn
  exact ⟨hm, hn, hle.2 (by decide), (hfilter rfl).2 (by decide)⟩

/-- The number behind it asks for less, although it is larger and at least `3`. -/
theorem level_falls_behind_last :
    WrittenAs 255 "255" ∧ WrittenAs 256 "256" ∧
      (ofEnvironment (verbose "255")).level = .trace ∧
      (ofEnvironment (verbose "256")).level = .info ∧
      (ofEnvironment (verbose "256")).level.rank < (ofEnvironment (verbose "255")).level.rank :=
  ⟨writtenAs_toString 255, writtenAs_toString 256, by decide, by decide, by decide⟩

end LogSettings
end Loopsmith
