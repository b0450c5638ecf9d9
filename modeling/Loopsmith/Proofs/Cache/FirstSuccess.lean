import Loopsmith.Counts
import Loopsmith.Proofs.Cache
import Mathlib.Data.List.Basic

/-!
# The cache is a map of first successes

Seen from outside, a cache needs no state of its own: all that it answers can be worked out from
what was done with it before.  The value of a key is what the first successful making for it came
to, a request makes something exactly if there is none, and the counters count requests.

`Record` is one thing that was done, with what came of it, and a history is a list of records.
For a request the record says what `create` came to each time it was asked, which is how one
sees whether it was asked at all.  `Record.Fits` says what a record has to be after a given
history, in terms of the history alone.  The cache keeps just enough to know this: `Tracks`
relates it to its history, every use keeps the relation (`Tracks.use`), and the rest follows by
going through the uses one after another.
-/

namespace Loopsmith
namespace Cache

variable {κ α ε σ : Type} [DecidableEq κ]

/-! ## Uses and records -/

/-- Something that can be done with a cache. -/
inductive Use (κ α ε σ : Type) where
  | request (k : κ) (create : σ → Except ε α × σ)
  | get (k : κ)
  | contains (k : κ)
  | accesses (k : κ)
  | counts

def Use.isRequest : Use κ α ε σ → Bool
  | request _ _ => true
  | _ => false

/-- Something that was done with a cache, and what came of it. -/
inductive Record (κ α ε : Type) where
  /-- `made` is what `create` came to each time it was asked. -/
  | request (k : κ) (made : List (Except ε α)) (answer : Except ε α)
  | get (k : κ) (answer : Option α)
  | contains (k : κ) (answer : Bool)
  | accesses (k : κ) (answer : Option Nat)
  | counts (answer : CacheCounts)

def counts (c : Cache κ α) : CacheCounts :=
  ⟨c.size, c.hits, c.misses, c.failures⟩

/-- Uses a cache, in a state of the user. -/
def use (c : Cache κ α) (s : σ) : Use κ α ε σ → Record κ α ε × Cache κ α × σ
  | .request k create =>
      (.request k (c.creations k create s) (c.getOrCreate k create s).1,
        (c.getOrCreate k create s).2)
  | .get k => (.get k (c.get? k), c, s)
  | .contains k => (.contains k (c.contains k), c, s)
  | .accesses k => (.accesses k (c.accesses? k), c, s)
  | .counts => (.counts c.counts, c, s)

/-- Uses a cache again and again. -/
def course (c : Cache κ α) (s : σ) : List (Use κ α ε σ) → List (Record κ α ε) × Cache κ α × σ
  | [] => ([], c, s)
  | u :: us =>
      let first := c.use s u
      let rest := course first.2.1 first.2.2 us
      (first.1 :: rest.1, rest.2)

/-! ## What a history says -/

namespace Record

/-- What was made in the course of it. -/
def made : Record κ α ε → List (Except ε α)
  | request _ made _ => made
  | _ => []

def isRequest : Record κ α ε → Bool
  | request _ _ _ => true
  | _ => false

def isRequestFor (k : κ) : Record κ α ε → Bool
  | request k' _ _ => k' = k
  | _ => false

/-- A request that made nothing. -/
def isHit : Record κ α ε → Bool
  | request _ made _ => made.isEmpty
  | _ => false

end Record

/-- The value of the first successful making for a key. -/
def firstSuccess (k : κ) (history : List (Record κ α ε)) : Option α :=
  ((history.filter (·.isRequestFor k)).flatMap Record.made).findSome? Except.toOption

/-- Some request for the key was answered with a value. -/
def Succeeded (k : κ) (history : List (Record κ α ε)) : Prop :=
  ∃ made a, .request k made (.ok a) ∈ history

/-- The request that made the entry of `k`, and the number of requests for `k` after it. -/
def MadeBefore (k : κ) (a : α) (later : Nat) (history : List (Record κ α ε)) : Prop :=
  ∃ before after, history = before ++ .request k [.ok a] (.ok a) :: after ∧
    later = after.countP (·.isRequestFor k)

/-- The counters that a history comes to. -/
def countsOf (history : List (Record κ α ε)) : CacheCounts where
  entries := (history.flatMap Record.made).countP Except.isOk
  hits := history.countP Record.isHit
  misses := (history.flatMap Record.made).length
  failures := (history.flatMap Record.made).countP (!·.isOk)

/-- What a record has to be after a history. -/
def Record.Fits (history : List (Record κ α ε)) : Record κ α ε → Prop
  | request k made answer =>
      (made ≠ [] ↔ ¬ Succeeded k history) ∧ (made = [] ∨ made = [answer]) ∧
        match answer with
        | .ok a => firstSuccess k (history ++ [.request k made answer]) = some a
        | .error e => made = [.error e]
  | get k answer => answer = firstSuccess k history
  | contains k answer => answer = true ↔ Succeeded k history
  | accesses k answer =>
      (answer = none ↔ ¬ Succeeded k history) ∧
        ∀ n, answer = some n → ∃ a later, MadeBefore k a later history ∧ n = 1 + later
  | counts answer => answer = countsOf history

/-! ## A history grows -/

section

variable (k : κ) (history : List (Record κ α ε)) (e : Record κ α ε)

theorem firstSuccess_append (later : List (Record κ α ε)) :
    firstSuccess k (history ++ later) = (firstSuccess k history).or (firstSuccess k later) := by
  rw [firstSuccess, List.filter_append, List.flatMap_append, List.findSome?_append]
  rfl

theorem firstSuccess_singleton :
    firstSuccess k [e] = if e.isRequestFor k then e.made.findSome? Except.toOption else none := by
  rw [firstSuccess, List.filter_singleton]
  cases e.isRequestFor k with
  | true => simp
  | false => rfl

omit [DecidableEq κ] in
theorem succeeded_concat :
    Succeeded k (history ++ [e]) ↔ Succeeded k history ∨ ∃ made a, e = .request k made (.ok a) := by
  simp only [Succeeded, List.mem_append, List.mem_singleton, exists_or]
  simp only [eq_comm]

omit [DecidableEq κ] in
theorem countsOf_concat : countsOf (history ++ [e]) =
    { entries := (countsOf history).entries + e.made.countP Except.isOk
      hits := (countsOf history).hits + if e.isHit then 1 else 0
      misses := (countsOf history).misses + e.made.length
      failures := (countsOf history).failures + e.made.countP (!·.isOk) } := by
  simp [countsOf, List.countP_singleton]

omit [DecidableEq κ] in
theorem countP_concat_request (made : List (Except ε α)) (answer : Except ε α) :
    (history ++ [Record.request k made answer]).countP Record.isRequest =
      history.countP Record.isRequest + 1 := by
  rw [List.countP_append, List.countP_singleton]
  rfl

theorem MadeBefore.concat {k : κ} {history : List (Record κ α ε)} {a : α} {later : Nat}
    (h : MadeBefore k a later history) (e : Record κ α ε) :
    MadeBefore k a (later + if e.isRequestFor k then 1 else 0) (history ++ [e]) := by
  obtain ⟨before, after, rfl, rfl⟩ := h
  refine ⟨before, after ++ [e], by simp, ?_⟩
  rw [List.countP_append, List.countP_singleton]

end

/-! ## The entries -/

/-- All accesses to the entries. -/
def accessesIn : List (κ × CacheEntry α) → Nat
  | [] => 0
  | e :: es => e.2.accesses + accessesIn es

omit [DecidableEq κ] in
theorem accessesIn_append (es es' : List (κ × CacheEntry α)) :
    accessesIn (es ++ es') = accessesIn es + accessesIn es' := by
  induction es with
  | nil => simp [accessesIn]
  | cons e es ih => simp [accessesIn, ih, Nat.add_assoc]

theorem map_fst_touch (k : κ) (es : List (κ × CacheEntry α)) :
    (touch k es).map Prod.fst = es.map Prod.fst := by
  induction es with
  | nil => rfl
  | cons e es ih =>
      rw [touch]
      split
      · rfl
      · rw [List.map_cons, ih, List.map_cons]

theorem accessesIn_touch {k : κ} {es : List (κ × CacheEntry α)} (h : (es.lookup k).isSome = true) :
    accessesIn (touch k es) = accessesIn es + 1 := by
  induction es with
  | nil => cases h
  | cons e es ih =>
      obtain ⟨k', v⟩ := e
      rw [touch]
      split
      · simp only [accessesIn]
        omega
      · next hk =>
          have hne : (k == k') = false := by simpa using Ne.symm hk
          rw [List.lookup_cons, hne] at h
          rw [accessesIn, ih h, accessesIn, Nat.add_assoc]

theorem not_mem_of_lookup_eq_none {k : κ} {es : List (κ × CacheEntry α)}
    (h : es.lookup k = none) : k ∉ es.map Prod.fst := by
  intro hk
  obtain ⟨e, he, rfl⟩ := List.mem_map.1 hk
  simpa using List.lookup_eq_none_iff.1 h e he

theorem lookup_eq_some_of_mem {es : List (κ × CacheEntry α)} (hnodup : (es.map Prod.fst).Nodup)
    {k : κ} {e : CacheEntry α} (h : (k, e) ∈ es) : es.lookup k = some e := by
  induction es with
  | nil => cases h
  | cons d es ih =>
      obtain ⟨k', d⟩ := d
      obtain ⟨hnot, hnodup⟩ := List.nodup_cons.1 hnodup
      rcases List.mem_cons.1 h with heq | hmem
      · cases heq
        simp
      · have hne : (k == k') = false := by
          rw [beq_eq_false_iff_ne]
          rintro rfl
          exact hnot (List.mem_map.2 ⟨(k, e), hmem, rfl⟩)
        rw [List.lookup_cons, hne]
        exact ih hnodup hmem

/-! ## What the cache keeps of its history -/

/-- The cache after a history. -/
structure Tracks (history : List (Record κ α ε)) (c : Cache κ α) : Prop where
  get?_eq : ∀ k, c.get? k = firstSuccess k history
  succeeded_iff : ∀ k, Succeeded k history ↔ (c.get? k).isSome = true
  nodup : (c.entries.map Prod.fst).Nodup
  counts_eq : c.counts = countsOf history
  requests_eq : c.hits + c.misses = history.countP Record.isRequest
  madeBefore : ∀ k e, c.entry? k = some e →
    ∃ later, MadeBefore k e.value later history ∧ e.accesses = 1 + later
  accessesIn_eq : accessesIn c.entries = c.size + c.hits

namespace Tracks

variable {history : List (Record κ α ε)} {c : Cache κ α}

theorem empty : Tracks ([] : List (Record κ α ε)) (Cache.empty : Cache κ α) where
  get?_eq _ := rfl
  succeeded_iff k := by simp [Succeeded, Cache.empty, get?, entry?]
  nodup := List.nodup_nil
  counts_eq := rfl
  requests_eq := rfl
  madeBefore k e h := by cases h
  accessesIn_eq := rfl

/-- What is no request leaves no trace. -/
theorem idle (h : Tracks history c) {e : Record κ α ε} (he : e.isRequest = false) :
    Tracks (history ++ [e]) c := by
  have hmade : e.made = [] := by cases e <;> first | rfl | cases he
  have hhit : e.isHit = false := by cases e <;> first | rfl | cases he
  have hfor : ∀ k, e.isRequestFor k = false := by cases e <;> first | exact fun _ => rfl | cases he
  refine ⟨fun k => ?_, fun k => ?_, h.nodup, ?_, ?_, fun k d hd => ?_, h.accessesIn_eq⟩
  · rw [firstSuccess_append, firstSuccess_singleton, hfor, ← h.get?_eq]
    simp
  · rw [succeeded_concat, h.succeeded_iff]
    refine or_iff_left ?_
    rintro ⟨made, a, rfl⟩
    cases he
  · rw [countsOf_concat, hmade, hhit]
    exact h.counts_eq
  · rw [List.countP_append, List.countP_singleton, he]
    exact h.requests_eq
  · obtain ⟨later, hmade, hlater⟩ := h.madeBefore k d hd
    have hconcat := hmade.concat e
    rw [hfor] at hconcat
    exact ⟨later, hconcat, hlater⟩

/-- A request for a key that is there. -/
theorem hit (h : Tracks history c) {k : κ} {a : α} (hk : c.get? k = some a) :
    Tracks (history ++ [.request k [] (.ok a)])
      { c with entries := touch k c.entries, hits := c.hits + 1 } := by
  have hsome : (c.entries.lookup k).isSome = true := by
    have hk' : (c.get? k).isSome = true := by rw [hk]; rfl
    simpa [get?, entry?] using hk'
  refine ⟨fun k' => ?_, fun k' => ?_, ?_, ?_, ?_, fun k' d hd => ?_, ?_⟩
  · rw [get?_touch, firstSuccess_append, firstSuccess_singleton, h.get?_eq]
    simp [Record.made]
  · rw [get?_touch, succeeded_concat, h.succeeded_iff]
    refine or_iff_left_of_imp ?_
    rintro ⟨made, b, heq⟩
    cases heq
    rw [hk]
    rfl
  · rw [map_fst_touch]
    exact h.nodup
  · rw [countsOf_concat, ← h.counts_eq]
    simp [counts, size, length_touch, Record.made, Record.isHit]
  · rw [countP_concat_request, ← h.requests_eq]
    exact Nat.add_right_comm c.hits 1 c.misses
  · rw [entry?_touch] at hd
    split at hd
    · next heq =>
        subst heq
        obtain ⟨d', hd', rfl⟩ := Option.map_eq_some_iff.1 hd
        obtain ⟨later, hmade, hlater⟩ := h.madeBefore k' d' hd'
        refine ⟨later + 1, ?_, by rw [hlater, Nat.add_assoc]⟩
        simpa [Record.isRequestFor] using hmade.concat (.request k' [] (.ok a))
    · next hne =>
        obtain ⟨later, hmade, hlater⟩ := h.madeBefore k' d hd
        refine ⟨later, ?_, hlater⟩
        simpa [Record.isRequestFor, Ne.symm hne] using hmade.concat (.request k [] (.ok a))
  · have htotal := h.accessesIn_eq
    rw [accessesIn_touch hsome, htotal]
    simp only [size, length_touch]
    omega

/-- A request that made the entry of a key. -/
theorem made (h : Tracks history c) {k : κ} (hk : c.get? k = none) (a : α) :
    Tracks (history ++ [.request k [.ok a] (.ok a)])
      { c with entries := c.entries ++ [(k, ⟨a, 1⟩)], misses := c.misses + 1 } := by
  have hnone : c.entries.lookup k = none := by simpa [get?, entry?] using hk
  refine ⟨fun k' => ?_, fun k' => ?_, ?_, ?_, ?_, fun k' d hd => ?_, ?_⟩
  · rw [firstSuccess_append, firstSuccess_singleton, ← h.get?_eq]
    by_cases heq : k' = k
    · subst heq
      rw [get?_append c k' a _ hk, hk]
      simp [Record.isRequestFor, Record.made, Except.toOption]
    · rw [get?_append_of_ne c a _ heq]
      simp [Record.isRequestFor, Ne.symm heq]
  · rw [succeeded_concat, h.succeeded_iff]
    by_cases heq : k' = k
    · subst heq
      rw [get?_append c k' a _ hk]
      exact iff_of_true (.inr ⟨_, a, rfl⟩) rfl
    · rw [get?_append_of_ne c a _ heq]
      refine or_iff_left ?_
      rintro ⟨made, b, hrequest⟩
      cases hrequest
      exact heq rfl
  · rw [List.map_append]
    refine List.nodup_append.2 ⟨h.nodup, by simp, ?_⟩
    rintro k' hk' _ hmem rfl
    rw [List.mem_singleton.1 hmem] at hk'
    exact not_mem_of_lookup_eq_none hnone hk'
  · rw [countsOf_concat, ← h.counts_eq]
    simp [counts, size, Record.made, Record.isHit, Except.isOk, Except.toBool]
  · rw [countP_concat_request, ← h.requests_eq]
    rfl
  · rw [entry?_append c k' _ _ hk] at hd
    split at hd
    · next heq =>
        subst heq
        cases hd
        exact ⟨0, ⟨history, [], rfl, rfl⟩, rfl⟩
    · next hne =>
        obtain ⟨later, hmade, hlater⟩ := h.madeBefore k' d hd
        refine ⟨later, ?_, hlater⟩
        simpa [Record.isRequestFor, Ne.symm hne] using hmade.concat (.request k [.ok a] (.ok a))
  · have htotal := h.accessesIn_eq
    rw [accessesIn_append, htotal]
    simp only [accessesIn, size, List.length_append, List.length_singleton]
    omega

/-- A request that came to nothing. -/
theorem failed (h : Tracks history c) {k : κ} (hk : c.get? k = none) (e : ε) :
    Tracks (history ++ [.request k [.error e] (.error e)])
      { c with misses := c.misses + 1, failures := c.failures + 1 } := by
  refine ⟨fun k' => ?_, fun k' => ?_, h.nodup, ?_, ?_, fun k' d hd => ?_, h.accessesIn_eq⟩
  · rw [firstSuccess_append, firstSuccess_singleton, ← h.get?_eq]
    simp [Record.made, Except.toOption, get?, entry?]
  · rw [succeeded_concat, h.succeeded_iff]
    refine or_iff_left ?_
    rintro ⟨made, b, hrequest⟩
    cases hrequest
  · rw [countsOf_concat, ← h.counts_eq]
    simp [counts, size, Record.made, Record.isHit, Except.isOk, Except.toBool]
  · rw [countP_concat_request, ← h.requests_eq]
    rfl
  · obtain ⟨later, hmade, hlater⟩ := h.madeBefore k' d hd
    have hne : k ≠ k' := by
      rintro rfl
      have hsome : c.get? k = some d.value := congrArg (Option.map CacheEntry.value) hd
      rw [hk] at hsome
      cases hsome
    refine ⟨later, ?_, hlater⟩
    simpa [Record.isRequestFor, hne] using hmade.concat (.request k [.error e] (.error e))

theorem accesses?_fits (h : Tracks history c) (k : κ) :
    (Record.accesses k (c.accesses? k)).Fits history := by
  constructor
  · rw [h.succeeded_iff, get?, accesses?]
    cases c.entry? k with
    | none => simp
    | some e => simp
  · intro n hn
    obtain ⟨e, he, rfl⟩ := Option.map_eq_some_iff.1 hn
    obtain ⟨later, hmade, hlater⟩ := h.madeBefore k e he
    exact ⟨e.value, later, hmade, hlater⟩

/-- **A use of the cache fits its history and goes down in it.** -/
theorem use (h : Tracks history c) (s : σ) (u : Use κ α ε σ) :
    (c.use s u).1.Fits history ∧ Tracks (history ++ [(c.use s u).1]) (c.use s u).2.1 := by
  cases u with
  | get k => exact ⟨h.get?_eq k, h.idle rfl⟩
  | contains k =>
      refine ⟨?_, h.idle rfl⟩
      rw [Cache.use, contains_eq_isSome_get?]
      exact (h.succeeded_iff k).symm
  | accesses k => exact ⟨h.accesses?_fits k, h.idle rfl⟩
  | counts => exact ⟨h.counts_eq, h.idle rfl⟩
  | request k create =>
      rw [Cache.use]
      have hobtained := obtained_getOrCreate c k create s
      have hsucceeded := h.succeeded_iff k
      generalize c.getOrCreate k create s = t at hobtained
      cases hobtained with
      | hit a hk =>
          rw [creations_of_get?_eq_some hk]
          have htracks := h.hit hk
          refine ⟨⟨?_, .inl rfl, ?_⟩, htracks⟩
          · rw [hsucceeded, hk]
            simp
          · rw [← htracks.get?_eq, get?_touch, hk]
      | made a s' hk hcreate =>
          rw [creations_of_get?_eq_none hk, hcreate]
          have htracks := h.made hk a
          refine ⟨⟨?_, .inr rfl, ?_⟩, htracks⟩
          · rw [hsucceeded, hk]
            simp
          · rw [← htracks.get?_eq, get?_append c k a _ hk]
      | failed e s' hk hcreate =>
          rw [creations_of_get?_eq_none hk, hcreate]
          refine ⟨⟨?_, .inr rfl, rfl⟩, h.failed hk e⟩
          rw [hsucceeded, hk]
          simp

/-- Every use in a course fits what was done before it, and the cache at the end tracks all. -/
theorem course (h : Tracks history c) (s : σ) (us : List (Use κ α ε σ)) :
    (∀ before e after, (c.course s us).1 = before ++ e :: after → e.Fits (history ++ before)) ∧
      Tracks (history ++ (c.course s us).1) (c.course s us).2.1 := by
  induction us generalizing history c s with
  | nil =>
      rw [Cache.course, List.append_nil]
      refine ⟨fun before e after heq => ?_, h⟩
      simp at heq
  | cons u us ih =>
      obtain ⟨hfits, htracks⟩ := h.use s u
      obtain ⟨hlater, hlast⟩ := ih htracks (c.use s u).2.2
      rw [Cache.course]
      constructor
      · intro before e after heq
        cases before with
        | nil =>
            obtain ⟨rfl, -⟩ := List.cons.inj heq
            rwa [List.append_nil]
        | cons d before =>
            obtain ⟨rfl, htail⟩ := List.cons.inj heq
            have hfits' := hlater before e after htail
            rwa [List.append_assoc] at hfits'
      · rwa [List.append_assoc] at hlast

end Tracks

/-- A course that goes on. -/
theorem course_append (c : Cache κ α) (s : σ) (us vs : List (Use κ α ε σ)) :
    c.course s (us ++ vs) =
      ((c.course s us).1 ++ ((c.course s us).2.1.course (c.course s us).2.2 vs).1,
        ((c.course s us).2.1.course (c.course s us).2.2 vs).2) := by
  induction us generalizing c s with
  | nil => rfl
  | cons u us ih =>
      rw [List.cons_append, course, ih, course]
      rfl

/-- **The cache is a map of first successes.**  Whatever is done with an empty cache, every request
asks its `create` exactly if no earlier request for the key succeeded, and then once; it answers
with the value of the first successful making for its key, or with the error that it just made.
The other answers can be worked out from the history as well, and asking for them changes nothing.
There is one entry for each key that succeeded, with the value that was made for it, which stays;
its accesses are the request that made it and the later ones for its key.  Requests are hits or
misses, misses are entries or failures, and all accesses together are entries and hits. -/
theorem first_success_map (s : σ) (uses : List (Use κ α ε σ)) :
    let history := ((empty : Cache κ α).course s uses).1
    let c := ((empty : Cache κ α).course s uses).2.1
    (∀ before e after, history = before ++ e :: after → e.Fits before) ∧
      (∀ k, c.get? k = firstSuccess k history) ∧
      (∀ more k a, c.get? k = some a →
        ((empty : Cache κ α).course s (uses ++ more)).2.1.get? k = some a) ∧
      (c.entries.map Prod.fst).Nodup ∧
      (∀ k e, (k, e) ∈ c.entries →
        ∃ later, MadeBefore k e.value later history ∧ e.accesses = 1 + later) ∧
      c.hits + c.misses = history.countP Record.isRequest ∧
      c.misses = c.size + c.failures ∧
      accessesIn c.entries = c.size + c.hits ∧
      ∀ (s' : σ) (u : Use κ α ε σ), u.isRequest = false → (c.use s' u).2 = (c, s') := by
  intro history c
  obtain ⟨hfits, htracks⟩ := Tracks.empty.course s uses
  refine ⟨hfits, htracks.get?_eq, fun more k a hk => ?_, htracks.nodup, fun k e he => ?_,
    htracks.requests_eq, ?_, htracks.accessesIn_eq, fun s' u hu => ?_⟩
  · have hmore := (Tracks.empty.course s (uses ++ more)).2.get?_eq k
    have hfirst : firstSuccess k history = some a := by rw [← hk, htracks.get?_eq k]; rfl
    rw [hmore, List.nil_append, course_append, firstSuccess_append]
    exact congrArg (Option.or · _) hfirst
  · exact htracks.madeBefore k e (lookup_eq_some_of_mem htracks.nodup he)
  · have hcounts := htracks.counts_eq
    have hmisses : c.misses = (countsOf history).misses := congrArg CacheCounts.misses hcounts
    have hsize : c.size = (countsOf history).entries := congrArg CacheCounts.entries hcounts
    have hfailures : c.failures = (countsOf history).failures :=
      congrArg CacheCounts.failures hcounts
    rw [hmisses, hsize, hfailures]
    simp only [countsOf]
    rw [List.length_eq_countP_add_countP Except.isOk]
    simp
  · cases u with
    | request => cases hu
    | get => rfl
    | contains => rfl
    | accesses => rfl
    | counts => rfl

end Cache
end Loopsmith
