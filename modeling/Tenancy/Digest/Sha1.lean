import Tenancy.Digest.Block

/-!
# SHA-1

The secure hash algorithm with a digest of 160 bits.
-/

namespace Tenancy.Digest

/-- The chaining words of SHA-1. -/
structure Sha1 where
  a : UInt32
  b : UInt32
  c : UInt32
  d : UInt32
  e : UInt32

namespace Sha1

def start : Sha1 := ⟨0x67452301, 0xefcdab89, 0x98badcfe, 0x10325476, 0xc3d2e1f0⟩

/-- The schedule of a block, from its words in reverse: each further word is computed from four
earlier ones. -/
def schedule : Nat → List UInt32 → List UInt32
  | 0, latest => latest.reverse
  | n + 1, latest =>
    let word := rotateLeft
      (latest.getD 2 0 ^^^ latest.getD 7 0 ^^^ latest.getD 13 0 ^^^ latest.getD 15 0) 1
    schedule n (word :: latest)

/-- The mixing function and constant of a round. -/
def mix (round : Nat) (b c d : UInt32) : UInt32 :=
  if round < 20 then (b &&& c ||| (~~~ b) &&& d) + 0x5a827999
  else if round < 40 then (b ^^^ c ^^^ d) + 0x6ed9eba1
  else if round < 60 then (b &&& c ||| b &&& d ||| c &&& d) + 0x8f1bbcdc
  else (b ^^^ c ^^^ d) + 0xca62c1d6

def round (s : Sha1) (step : UInt32 × Nat) : Sha1 :=
  ⟨rotateLeft s.a 5 + mix step.2 s.b s.c s.d + s.e + step.1, s.a, rotateLeft s.b 30, s.c, s.d⟩

def compress (s : Sha1) (block : List UInt32) : Sha1 :=
  let t := (schedule 64 block.reverse).zipIdx.foldl round s
  ⟨s.a + t.a, s.b + t.b, s.c + t.c, s.d + t.d, s.e + t.e⟩

end Sha1

/-- The twenty bytes of the SHA-1 digest. -/
def sha1 (message : Bytes) : Bytes :=
  let s := (blocks message).foldl Sha1.compress Sha1.start
  [s.a, s.b, s.c, s.d, s.e].flatMap wordBytes

end Tenancy.Digest
