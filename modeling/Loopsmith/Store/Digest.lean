/-!
# SHA-1

Stored libraries are found by a digest of what they were built from.  The input is
padded to whole blocks of 64 bytes and each block is mixed into five 32-bit words;
the words, in hexadecimal, are the digest.
-/

namespace Loopsmith
namespace Digest

/-- The five words that are carried from block to block. -/
structure Words where
  a : UInt32
  b : UInt32
  c : UInt32
  d : UInt32
  e : UInt32
  deriving DecidableEq, Repr

def Words.initial : Words :=
  ⟨0x67452301, 0xEFCDAB89, 0x98BADCFE, 0x10325476, 0xC3D2E1F0⟩

def Words.add (x y : Words) : Words :=
  ⟨x.a + y.a, x.b + y.b, x.c + y.c, x.d + y.d, x.e + y.e⟩

def rotateLeft (x : UInt32) (n : UInt32) : UInt32 :=
  (x <<< n) ||| (x >>> (32 - n))

/-- The bytes of a number, most significant first. -/
def bigEndian (width n : Nat) : List UInt8 :=
  (List.range width).reverse.map fun i => UInt8.ofNat (n / Nat.pow 256 i)

/-- The input, a single one bit, zeros, and the length of the input in bits. -/
def padded (bytes : List UInt8) : List UInt8 :=
  let zeros := (119 - bytes.length % 64) % 64
  bytes ++ 0x80 :: (List.replicate zeros 0 ++ bigEndian 8 (8 * bytes.length))

/-- The number that four bytes spell. -/
def word (bytes : List UInt8) : UInt32 :=
  bytes.foldl (fun w b => (w <<< 8) ||| b.toUInt32) 0

/-- The first `n` stretches of `size` bytes. -/
def stretches (size : Nat) : Nat → List UInt8 → List (List UInt8)
  | 0, _ => []
  | n + 1, bytes => bytes.take size :: stretches size n (bytes.drop size)

/-- Adds `n` words to a schedule, which is kept with its last word in front. -/
def extend : Nat → List UInt32 → List UInt32
  | 0, ws => ws
  | n + 1, ws =>
      let next := ws.getD 2 0 ^^^ ws.getD 7 0 ^^^ ws.getD 13 0 ^^^ ws.getD 15 0
      extend n (rotateLeft next 1 :: ws)

/-- The eighty words that a block is mixed in as. -/
def schedule (block : List UInt8) : List UInt32 :=
  (extend 64 ((stretches 4 16 block).map word).reverse).reverse

/-- One step of the mixing; the function and the constant change every twenty
steps. -/
def mix (s : Words) (step : UInt32 × Nat) : Words :=
  let (f, k) : UInt32 × UInt32 :=
    if step.2 < 20 then ((s.b &&& s.c) ||| (~~~s.b &&& s.d), 0x5A827999)
    else if step.2 < 40 then (s.b ^^^ s.c ^^^ s.d, 0x6ED9EBA1)
    else if step.2 < 60 then ((s.b &&& s.c) ||| (s.b &&& s.d) ||| (s.c &&& s.d), 0x8F1BBCDC)
    else (s.b ^^^ s.c ^^^ s.d, 0xCA62C1D6)
  ⟨rotateLeft s.a 5 + f + s.e + k + step.1, s.a, rotateLeft s.b 30, s.c, s.d⟩

def absorb (s : Words) (block : List UInt8) : Words :=
  s.add ((schedule block).zipIdx.foldl mix s)

def words (bytes : List UInt8) : Words :=
  let input := padded bytes
  (stretches 64 (input.length / 64) input).foldl absorb Words.initial

/-- A word as eight hexadecimal digits. -/
def hex (w : UInt32) : String :=
  let digits := Nat.toDigits 16 w.toNat
  String.ofList (List.replicate (8 - digits.length) '0' ++ digits)

/-- The digest of a list of bytes, as forty hexadecimal digits. -/
def sha1 (bytes : List UInt8) : String :=
  let s := words bytes
  String.join [hex s.a, hex s.b, hex s.c, hex s.d, hex s.e]

end Digest
end Loopsmith
