/-!
# A cache of first successes

For each key the cache holds the first value that could be made for it, for
good: nothing is replaced or dropped, and a failure leaves no trace but a count,
so the next request for the key tries again.

Making a value usually changes something else as well, so `getOrCreate` threads
a state of the caller's choice through the attempt; on a hit that state is left
alone.
-/

namespace Loopsmith

structure CacheEntry (α : Type) where
  value : α
  /-- How often the entry was asked for, the request that made it included. -/
  accesses : Nat
  deriving Repr

structure Cache (κ α : Type) where
  entries : List (κ × CacheEntry α)
  hits : Nat
  misses : Nat
  failures : Nat
  deriving Repr

namespace Cache

variable {κ α ε σ : Type} [DecidableEq κ]

def empty : Cache κ α :=
  ⟨[], 0, 0, 0⟩

def entry? (c : Cache κ α) (k : κ) : Option (CacheEntry α) :=
  c.entries.lookup k

def get? (c : Cache κ α) (k : κ) : Option α :=
  (c.entry? k).map CacheEntry.value

def contains (c : Cache κ α) (k : κ) : Bool :=
  (c.entry? k).isSome

def accesses? (c : Cache κ α) (k : κ) : Option Nat :=
  (c.entry? k).map CacheEntry.accesses

def size (c : Cache κ α) : Nat :=
  c.entries.length

/-- Counts one more access to the entry of `k`. -/
def touch (k : κ) : List (κ × CacheEntry α) → List (κ × CacheEntry α)
  | [] => []
  | e :: rest =>
      if e.1 = k then (e.1, { e.2 with accesses := e.2.accesses + 1 }) :: rest
      else e :: touch k rest

/-- The value of `k`, made by `create` if there is none yet. -/
def getOrCreate (c : Cache κ α) (k : κ) (create : σ → Except ε α × σ) (s : σ) :
    Except ε α × Cache κ α × σ :=
  match c.get? k with
  | some a => (.ok a, { c with entries := touch k c.entries, hits := c.hits + 1 }, s)
  | none =>
      match create s with
      | (.ok a, s') =>
          (.ok a,
            { c with entries := c.entries ++ [(k, ⟨a, 1⟩)], misses := c.misses + 1 }, s')
      | (.error e, s') =>
          (.error e, { c with misses := c.misses + 1, failures := c.failures + 1 }, s')

end Cache
end Loopsmith
