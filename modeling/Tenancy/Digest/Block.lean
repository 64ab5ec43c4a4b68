import Tenancy.Text.Utf8

/-!
# Blocks of a message digest

Both digests of this library read a message as blocks of sixteen 32-bit words, most significant byte
first, after padding it with a one bit, zeros and the length in bits.  They differ in the number of
chaining words and in the compression of one block.
-/

namespace Tenancy.Digest

/-- The bytes of a word, the most significant first. -/
def wordBytes (w : UInt32) : Bytes :=
  [(w >>> 24).toUInt8, (w >>> 16).toUInt8, (w >>> 8).toUInt8, w.toUInt8]

/-- The `n` bytes of a number, the most significant first; higher bytes are dropped. -/
def bigEndian : Nat → Nat → Bytes
  | 0, _ => []
  | n + 1, value => bigEndian n (value / 256) ++ [UInt8.ofNat value]

/-- The message with its padding: a multiple of 64 bytes that ends in the length in bits. -/
def padded (message : Bytes) : Bytes :=
  message ++ 0x80 :: List.replicate ((119 - message.length % 64) % 64) 0 ++
    bigEndian 8 (message.length * 8)

/-- Four bytes at a time as words; an incomplete word at the end is dropped. -/
def words : Bytes → List UInt32
  | a :: b :: c :: d :: rest =>
    (a.toUInt32 <<< 24 ||| b.toUInt32 <<< 16 ||| c.toUInt32 <<< 8 ||| d.toUInt32) :: words rest
  | _ => []

/-- A list in parts of `size + 1`, the last of which may be shorter. -/
def chunks {α : Type} (size : Nat) (l : List α) : List (List α) :=
  match l with
  | [] => []
  | x :: rest => (x :: rest.take size) :: chunks size (rest.drop size)
termination_by l.length
decreasing_by simp only [List.length_cons, List.length_drop]; omega

/-- The blocks of the padded message. -/
def blocks (message : Bytes) : List (List UInt32) := chunks 15 (words (padded message))

/-- The word with its bits moved up cyclically by `n` places, for `n` from 1 to 31. -/
def rotateLeft (w : UInt32) (n : UInt32) : UInt32 := w <<< n ||| w >>> (32 - n)

end Tenancy.Digest
