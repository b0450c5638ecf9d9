/-!
# Blank characters

Parameter lists, environment values and log filters are all trimmed, and every
one of them is trimmed of the same characters: those with the Unicode property
`White_Space`.  The property is a closed table of ten ranges, so it is written
out here once and everything else asks `isBlank`.

Trimming works on character lists, which is what the readers recurse on;
`trimmed` is the same operation on a `String`.
-/

namespace Loopsmith
namespace Text

/-- The code points with the property `White_Space`, as inclusive ranges in
ascending order. -/
def blankRanges : List (Nat × Nat) :=
  [(0x9, 0xD), (0x20, 0x20), (0x85, 0x85), (0xA0, 0xA0), (0x1680, 0x1680),
   (0x2000, 0x200A), (0x2028, 0x2029), (0x202F, 0x202F), (0x205F, 0x205F),
   (0x3000, 0x3000)]

def isBlank (c : Char) : Bool :=
  blankRanges.any fun r => r.1 ≤ c.toNat && c.toNat ≤ r.2

def trimStart (cs : List Char) : List Char :=
  cs.dropWhile isBlank

def trimEnd (cs : List Char) : List Char :=
  (cs.reverse.dropWhile isBlank).reverse

/-- What is left of a text without the blanks at either end. -/
def trim (cs : List Char) : List Char :=
  trimEnd (trimStart cs)

def trimmed (s : String) : String :=
  String.ofList (trim s.toList)

/-- A text that trims to nothing, the empty one included. -/
def isBlankText (s : String) : Bool :=
  (trim s.toList).isEmpty

end Text
end Loopsmith
