/-!
# Parameters

The constants of one specialization: names with values, in the order in which
the names were first given.  Giving a name again replaces its value and leaves
its place alone, so the order is part of what a parameter list means, and two
lists with the same pairs in another order are different.
-/

namespace Loopsmith

structure Parameters where
  pairs : List (String × String)
  deriving DecidableEq, Repr

namespace Parameters

def empty : Parameters :=
  ⟨[]⟩

def get? (ps : Parameters) (name : String) : Option String :=
  ps.pairs.lookup name

def contains (ps : Parameters) (name : String) : Bool :=
  (ps.get? name).isSome

def size (ps : Parameters) : Nat :=
  ps.pairs.length

def isEmpty (ps : Parameters) : Bool :=
  ps.pairs.isEmpty

/-- Gives `name` a value: in its old place, or at the end if it is new. -/
def setPair (name value : String) : List (String × String) → List (String × String)
  | [] => [(name, value)]
  | p :: rest => if p.1 = name then (p.1, value) :: rest else p :: setPair name value rest

def set (ps : Parameters) (name value : String) : Parameters :=
  ⟨setPair name value ps.pairs⟩

end Parameters
end Loopsmith
