/-!
# Spans

A half-open range of byte offsets into a template or a parameter list.  Every
error about such a text carries one, and the segments of a template are reported
by them.
-/

namespace Loopsmith

structure Span where
  start : Nat
  stop : Nat
  deriving DecidableEq, Repr

namespace Span

def length (s : Span) : Nat :=
  s.stop - s.start

def isEmpty (s : Span) : Bool :=
  s.start == s.stop

/-- The span written as the range `start..stop`. -/
def text (s : Span) : String :=
  s!"{s.start}..{s.stop}"

/-- The span of `width` bytes from `start` on. -/
def ofWidth (start width : Nat) : Span :=
  ⟨start, start + width⟩

def shift (s : Span) (n : Nat) : Span :=
  ⟨s.start + n, s.stop + n⟩

end Span
end Loopsmith
