import Tenancy.Text.Utf8

/-!
# Base64 for tokens

The URL-safe alphabet without padding.  Three bytes become four symbols, and one or two bytes at the
end become two or three.  Reading is strict: it accepts a text only if writing gives that same text
back, so padding, symbols outside the alphabet and unused low bits that are set are all faults, and
of several faults one is reported by a fixed rule (`Base64.diagnose`).
-/

namespace Tenancy.Base64

/-- The 64 symbols in the order of their values. -/
def alphabet : List UInt8 :=
  utf8 "ABCDEFGHIJKLMNOPQRSTUVWXYZabcdefghijklmnopqrstuvwxyz0123456789-_"

/-- The symbol of a value below 64. -/
def symbol (n : Nat) : UInt8 :=
  if n < 26 then UInt8.ofNat (65 + n)
  else if n < 52 then UInt8.ofNat (97 + (n - 26))
  else if n < 62 then UInt8.ofNat (48 + (n - 52))
  else if n = 62 then 45
  else 95

/-- The value of a symbol. -/
def value? (b : UInt8) : Option Nat :=
  if 65 ≤ b ∧ b ≤ 90 then some (b.toNat - 65)
  else if 97 ≤ b ∧ b ≤ 122 then some (b.toNat - 97 + 26)
  else if 48 ≤ b ∧ b ≤ 57 then some (b.toNat - 48 + 52)
  else if b = 45 then some 62
  else if b = 95 then some 63
  else none

def encode : Bytes → Bytes
  | [] => []
  | [a] => [symbol (a.toNat / 4), symbol (a.toNat % 4 * 16)]
  | [a, b] =>
    [symbol (a.toNat / 4), symbol (a.toNat % 4 * 16 + b.toNat / 16), symbol (b.toNat % 16 * 4)]
  | a :: b :: c :: rest =>
    symbol (a.toNat / 4) :: symbol (a.toNat % 4 * 16 + b.toNat / 16) ::
      symbol (b.toNat % 16 * 4 + c.toNat / 64) :: symbol (c.toNat % 64) :: encode rest

/-- The bytes that the symbols write, if they write any. -/
def decode? : Bytes → Option Bytes
  | [] => some []
  | [_] => none
  | [s, t] => do
    let s ← value? s
    let t ← value? t
    if t % 16 = 0 then some [UInt8.ofNat (s * 4 + t / 16)] else none
  | [s, t, u] => do
    let s ← value? s
    let t ← value? t
    let u ← value? u
    if u % 4 = 0 then
      some [UInt8.ofNat (s * 4 + t / 16), UInt8.ofNat (t % 16 * 16 + u / 4)]
    else none
  | s :: t :: u :: v :: rest => do
    let s ← value? s
    let t ← value? t
    let u ← value? u
    let v ← value? v
    let rest ← decode? rest
    some (UInt8.ofNat (s * 4 + t / 16) :: UInt8.ofNat (t % 16 * 16 + u / 4) ::
      UInt8.ofNat (u % 4 * 64 + v) :: rest)

/-- Why symbols write no bytes. -/
inductive Fault where
  | invalidByte (byte : UInt8) (offset : Nat)
  | length
  | padding
  | lastSymbol (byte : UInt8) (offset : Nat)
  deriving DecidableEq

def Fault.message : Fault → String
  | .invalidByte byte offset =>
    "Invalid byte " ++ toString byte.toNat ++ ", offset " ++ toString offset ++ "."
  | .length => "Encoded text cannot have a 6-bit remainder."
  | .padding => "Invalid padding"
  | .lastSymbol byte offset =>
    "Invalid last symbol " ++ toString byte.toNat ++ ", offset " ++ toString offset ++ "."

/-- The equals sign, which pads in other forms of the code and is never accepted in this one. -/
def padByte : UInt8 := 61

/-- Equals signs are passed over, to be reported after all other bytes outside the alphabet, if they
end the text and the first of them is the third or fourth symbol of a quad in the last eight
bytes. -/
def isTrailingPad (length offset : Nat) (rest : Bytes) : Bool :=
  rest.all (· = padByte) && 2 ≤ offset % 4 && (length - 1) / 8 ≤ offset / 8

/-- The first byte outside the alphabet and its offset, trailing equals signs passed over. -/
def badByte? (length : Nat) : Nat → Bytes → Option (UInt8 × Nat)
  | _, [] => none
  | offset, b :: rest =>
    if (value? b).isSome then badByte? length (offset + 1) rest
    else if b = padByte ∧ isTrailingPad length offset rest then none
    else some (b, offset)

/-- What is wrong with symbols that write no bytes. -/
def diagnose (symbols : Bytes) : Fault :=
  let length := symbols.length
  let last := symbols.getLastD 0
  if length % 4 = 1 then
    if last = padByte ∨ (value? last).isSome then .length else .invalidByte last (length - 1)
  else
    match badByte? length 0 symbols with
    | some (b, offset) => .invalidByte b offset
    | none => if last = padByte then .padding else .lastSymbol last (length - 1)

/-- The bytes that the symbols write, or what is wrong with them. -/
def decode (symbols : Bytes) : Except Fault Bytes :=
  match decode? symbols with
  | some bytes => .ok bytes
  | none => .error (diagnose symbols)

end Tenancy.Base64
