/-!
# Memory

The caller's memory, as far as the pointers of a pack lead into it: 64-bit cells by
address.
-/

namespace Loopsmith

structure Memory where
  cells : List (UInt64 × Int64)
  deriving DecidableEq, Repr

namespace Memory

def empty : Memory :=
  ⟨[]⟩

def get? (m : Memory) (address : UInt64) : Option Int64 :=
  m.cells.lookup address

/-- Changes the cell at an address; an address without a cell is left alone. -/
def update (m : Memory) (address : UInt64) (f : Int64 → Int64) : Memory :=
  ⟨m.cells.map fun c => if c.1 == address then (c.1, f c.2) else c⟩

/-- The bytes of a cell. -/
def cellSize : Nat := 8

/-- Lays values out in consecutive cells. -/
def allocate (m : Memory) (address : UInt64) (values : List Int64) : Memory :=
  ⟨m.cells ++ values.zipIdx.map fun (v, i) => (address + UInt64.ofNat (cellSize * i), v)⟩

/-- Reads `n` consecutive cells. -/
def read (m : Memory) (address : UInt64) (n : Nat) : List Int64 :=
  (List.range n).filterMap fun i => m.get? (address + UInt64.ofNat (cellSize * i))

end Memory
end Loopsmith
