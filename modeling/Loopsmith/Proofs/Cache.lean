import Loopsmith.Cache

/-!
# What a request does to the cache

A cache changes in one way only, by a request, and a request ends in one of three ways:
the key was there, a value was made for it, or none could be made.  `Obtained` lists the
three with what is left of the cache, so nothing below or in later files has to open
`getOrCreate` again.

How often a value is made for a key does not show in what a request leaves behind, so
`creations` keeps a record of it.  Keeping it makes no difference to the request
(`getOrCreate_recording`), and no request makes more than one.

What is wanted of the entries is mostly that all of them have some property.  `All`
says so, and `All.obtained` that a request keeps it if the value it may have made has the
property too.
-/

namespace Loopsmith
namespace Cache

variable {κ α ε σ : Type} [DecidableEq κ]

/-! ## The three endings of a request -/

/-- What a request can come to. -/
inductive Obtained (c : Cache κ α) (k : κ) (create : σ → Except ε α × σ) (s : σ) :
    Except ε α × Cache κ α × σ → Prop
  | hit (a : α) : c.get? k = some a →
      Obtained c k create s
        (.ok a, { c with entries := touch k c.entries, hits := c.hits + 1 }, s)
  | made (a : α) (s' : σ) : c.get? k = none → create s = (.ok a, s') →
      Obtained c k create s
        (.ok a, { c with entries := c.entries ++ [(k, ⟨a, 1⟩)], misses := c.misses + 1 }, s')
  | failed (e : ε) (s' : σ) : c.get? k = none → create s = (.error e, s') →
      Obtained c k create s
        (.error e, { c with misses := c.misses + 1, failures := c.failures + 1 }, s')

theorem obtained_getOrCreate (c : Cache κ α) (k : κ) (create : σ → Except ε α × σ) (s : σ) :
    Obtained c k create s (c.getOrCreate k create s) := by
  unfold getOrCreate
  cases hk : c.get? k with
  | some a => exact .hit a hk
  | none =>
      rcases hc : create s with ⟨_ | a, s'⟩
      · exact .failed _ s' hk hc
      · exact .made a s' hk hc

theorem contains_eq_isSome_get? (c : Cache κ α) (k : κ) :
    c.contains k = (c.get? k).isSome := by
  simp [contains, get?]

/-! ## Looking keys up afterwards -/

/-- Counting an access changes no value. -/
theorem lookup_touch (k k' : κ) (es : List (κ × CacheEntry α)) :
    ((touch k es).lookup k').map CacheEntry.value = (es.lookup k').map CacheEntry.value := by
  induction es with
  | nil => rfl
  | cons e es ih =>
      obtain ⟨k₀, v⟩ := e
      rw [touch]
      by_cases hk : k' = k₀
      · split <;> simp [hk]
      · have hne : (k' == k₀) = false := by simpa using hk
        split
        · simp [List.lookup_cons, hne]
        · simpa [List.lookup_cons, hne] using ih

theorem length_touch (k : κ) (es : List (κ × CacheEntry α)) : (touch k es).length = es.length := by
  induction es with
  | nil => rfl
  | cons e es ih =>
      rw [touch]
      split
      · rfl
      · rw [List.length_cons, ih, List.length_cons]

theorem get?_touch (c : Cache κ α) (k k' : κ) (hits : Nat) :
    get? { c with entries := touch k c.entries, hits } k' = c.get? k' :=
  lookup_touch k k' c.entries

theorem get?_append (c : Cache κ α) (k : κ) (a : α) (misses : Nat) (h : c.get? k = none) :
    get? { c with entries := c.entries ++ [(k, ⟨a, 1⟩)], misses } k = some a := by
  have hnone : c.entries.lookup k = none := by simpa [get?, entry?] using h
  simp [get?, entry?, List.lookup_append, hnone]

theorem get?_append_of_ne (c : Cache κ α) {k k' : κ} (a : α) (misses : Nat) (h : k' ≠ k) :
    get? { c with entries := c.entries ++ [(k, ⟨a, 1⟩)], misses } k' = c.get? k' := by
  have hne : (k' == k) = false := by simpa using h
  simp [get?, entry?, List.lookup_append, List.lookup_cons, hne]

/-- The access is counted for the key that was asked for, and for no other. -/
theorem entry?_touch (c : Cache κ α) (k k' : κ) (hits : Nat) :
    entry? { c with entries := touch k c.entries, hits } k' =
      if k' = k then (c.entry? k).map fun e => { e with accesses := e.accesses + 1 }
      else c.entry? k' := by
  unfold entry?
  induction c.entries with
  | nil => simp [touch]
  | cons e es ih =>
      obtain ⟨k₀, v⟩ := e
      rw [touch]
      by_cases hk : k₀ = k
      · subst hk
        by_cases hk' : k' = k₀
        · simp [hk']
        · have hne : (k' == k₀) = false := by simpa using hk'
          simp [List.lookup_cons, hne, hk']
      · have hne : (k == k₀) = false := by simpa using Ne.symm hk
        by_cases hk' : k' = k₀
        · subst hk'
          simp [hk]
        · have hne' : (k' == k₀) = false := by simpa using hk'
          simpa [hk, List.lookup_cons, hne, hne'] using ih

theorem entry?_append (c : Cache κ α) {k : κ} (k' : κ) (e : CacheEntry α) (misses : Nat)
    (h : c.get? k = none) :
    entry? { c with entries := c.entries ++ [(k, e)], misses } k' =
      if k' = k then some e else c.entry? k' := by
  have hnone : c.entries.lookup k = none := by simpa [get?, entry?] using h
  simp only [List.lookup_append, entry?]
  by_cases hk : k' = k
  · simp [hk, hnone]
  · have hne : (k' == k) = false := by simpa using hk
    simp [hk, List.lookup_cons, hne]

/-- What was obtained is what the cache has under the key from then on. -/
theorem Obtained.get?_eq {c : Cache κ α} {k : κ} {create : σ → Except ε α × σ} {s : σ}
    {t : Except ε α × Cache κ α × σ} (h : Obtained c k create s t) {a : α} (ha : t.1 = .ok a) :
    t.2.1.get? k = some a := by
  cases h with
  | hit _ hk =>
      cases ha
      rw [get?_touch, hk]
  | made _ _ hk _ =>
      cases ha
      exact get?_append c k a _ hk
  | failed => cases ha

/-- A value that is there is what a request obtains. -/
theorem Obtained.eq_ok_of_get? {c : Cache κ α} {k : κ} {create : σ → Except ε α × σ} {s : σ}
    {t : Except ε α × Cache κ α × σ} (h : Obtained c k create s t) {a : α}
    (hk : c.get? k = some a) : t.1 = .ok a := by
  cases h with
  | hit a' hk' =>
      rw [hk] at hk'
      rw [Option.some.inj hk']
  | made _ _ hk' _ => rw [hk] at hk'; cases hk'
  | failed _ _ hk' _ => rw [hk] at hk'; cases hk'

/-- What making a value does to the caller's state is all that a request does to it. -/
theorem Obtained.rel {c : Cache κ α} {k : κ} {create : σ → Except ε α × σ} {s : σ}
    {t : Except ε α × Cache κ α × σ} (h : Obtained c k create s t) {R : σ → σ → Prop}
    (hrefl : R s s) (hcreate : R s (create s).2) : R s t.2.2 := by
  cases h with
  | hit => exact hrefl
  | made _ _ _ hc => rw [hc] at hcreate; exact hcreate
  | failed _ _ _ hc => rw [hc] at hcreate; exact hcreate

/-! ## What a request makes -/

/-- `create` with a record of what it has come to each time it was asked. -/
def recording (create : σ → Except ε α × σ) (w : List (Except ε α) × σ) :
    Except ε α × List (Except ε α) × σ :=
  ((create w.2).1, w.1 ++ [(create w.2).1], (create w.2).2)

/-- What `create` comes to in the course of a request, each time it is asked. -/
def creations (c : Cache κ α) (k : κ) (create : σ → Except ε α × σ) (s : σ) : List (Except ε α) :=
  (c.getOrCreate k (recording create) ([], s)).2.2.1

/-- Keeping a record makes no difference to a request. -/
theorem getOrCreate_recording (c : Cache κ α) (k : κ) (create : σ → Except ε α × σ) (s : σ)
    (record : List (Except ε α)) :
    let r := c.getOrCreate k (recording create) (record, s)
    (r.1, r.2.1, r.2.2.2) = c.getOrCreate k create s := by
  unfold getOrCreate
  cases c.get? k with
  | some a => rfl
  | none =>
      simp only [recording]
      rcases create s with ⟨_ | a, s'⟩
      · rfl
      · rfl

/-- Nothing is made for a key that is there. -/
theorem creations_of_get?_eq_some {c : Cache κ α} {k : κ} {a : α} (h : c.get? k = some a)
    (create : σ → Except ε α × σ) (s : σ) : c.creations k create s = [] := by
  simp only [creations, getOrCreate, h]

/-- For a key that is not there `create` is asked once. -/
theorem creations_of_get?_eq_none {c : Cache κ α} {k : κ} (h : c.get? k = none)
    (create : σ → Except ε α × σ) (s : σ) : c.creations k create s = [(create s).1] := by
  simp only [creations, getOrCreate, h, recording]
  rcases create s with ⟨_ | a, s'⟩
  · rfl
  · rfl

/-! ## A property of all entries -/

/-- Every value has the property that `P` asks of values under its key. -/
def All (P : κ → α → Prop) (c : Cache κ α) : Prop :=
  ∀ e ∈ c.entries, P e.1 e.2.value

omit [DecidableEq κ] in
theorem All.empty (P : κ → α → Prop) : All P (empty : Cache κ α) := by
  intro e he
  simp [Cache.empty] at he

theorem All.of_get? {P : κ → α → Prop} {c : Cache κ α} (h : All P c) {k : κ} {a : α}
    (hk : c.get? k = some a) : P k a := by
  obtain ⟨e, he, rfl⟩ := Option.map_eq_some_iff.1 hk
  obtain ⟨before, after, heq, -⟩ := List.lookup_eq_some_iff.1 he
  exact h (k, e) (by rw [heq]; simp)

/-- An entry whose access was counted was there before, with the same value. -/
theorem exists_of_mem_touch {k : κ} {es : List (κ × CacheEntry α)} {e : κ × CacheEntry α}
    (h : e ∈ touch k es) : ∃ e' ∈ es, e'.1 = e.1 ∧ e'.2.value = e.2.value := by
  induction es with
  | nil => simp [touch] at h
  | cons d es ih =>
      rw [touch] at h
      split at h
      · rcases List.mem_cons.1 h with rfl | h
        · exact ⟨d, List.mem_cons_self, rfl, rfl⟩
        · exact ⟨e, List.mem_cons_of_mem _ h, rfl, rfl⟩
      · rcases List.mem_cons.1 h with rfl | h
        · exact ⟨e, List.mem_cons_self, rfl, rfl⟩
        · obtain ⟨e', he', heq⟩ := ih h
          exact ⟨e', List.mem_cons_of_mem _ he', heq⟩

/-- A request keeps a property of all entries, if a value made by it has the property. -/
theorem All.obtained {P : κ → α → Prop} {c : Cache κ α} (h : All P c) {k : κ}
    {create : σ → Except ε α × σ} {s : σ} {t : Except ε α × Cache κ α × σ}
    (ho : Obtained c k create s t)
    (hmade : ∀ a s', create s = (.ok a, s') → P k a) : All P t.2.1 := by
  intro e he
  cases ho with
  | hit a _ =>
      obtain ⟨e', he', hkey, hvalue⟩ := exists_of_mem_touch he
      rw [← hkey, ← hvalue]
      exact h e' he'
  | made a s' _ hc =>
      rcases List.mem_append.1 he with he | he
      · exact h e he
      · rw [List.mem_singleton.1 he]
        exact hmade a s' hc
  | failed => exact h e he

end Cache
end Loopsmith
