/-!
# Phase timings

How long the named phases of one run took, in the order in which they ended.
Durations are whole nanoseconds.
-/

namespace Loopsmith

structure Phase where
  name : String
  nanoseconds : Nat
  deriving DecidableEq, Repr

structure Profile where
  phases : List Phase
  deriving DecidableEq, Repr

namespace Profile

def empty : Profile :=
  ⟨[]⟩

def push (p : Profile) (name : String) (nanoseconds : Nat) : Profile :=
  ⟨p.phases ++ [⟨name, nanoseconds⟩]⟩

def total (p : Profile) : Nat :=
  (p.phases.map Phase.nanoseconds).foldl (· + ·) 0

/-! ## The printed report -/

/-- Pads a text with blanks on the left. -/
def padLeft (width : Nat) (s : String) : String :=
  String.ofList (List.replicate (width - s.length) ' ') ++ s

/-- Milliseconds with two places, a tie going to the even hundredth. -/
def milliseconds (nanoseconds : Nat) : String :=
  let quotient := nanoseconds / 10000
  let twice := 2 * (nanoseconds % 10000)
  let hundredths :=
    if twice < 10000 || (twice == 10000 && quotient % 2 == 0) then quotient else quotient + 1
  let places := toString (hundredths % 100)
  toString (hundredths / 100) ++ "." ++ (if places.length < 2 then "0" ++ places else places)

def reportLine (name : String) (nanoseconds : Nat) : String :=
  padLeft 16 name ++ ": " ++ padLeft 6 (milliseconds nanoseconds) ++ " ms\n"

/-- One line for each phase and one for their sum. -/
def report (p : Profile) : String :=
  "[Timing]\n" ++ String.join (p.phases.map fun phase => reportLine phase.name phase.nanoseconds) ++
    reportLine "Total" p.total

end Profile
end Loopsmith
