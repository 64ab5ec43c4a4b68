import Tenancy.Digest.Sha1

/-!
# Unique identifiers

A 128-bit identifier is written as 32 lower-case hexadecimal digits in groups of 8, 4, 4, 4 and 12.
It is read with the groups or without any, in braces or after the word `urn:uuid:`, in either letter
case.  `Uid.named` derives an identifier from a name inside a namespace: version 5, by SHA-1.
-/

namespace Tenancy

structure Uid where
  bits : BitVec 128
  deriving DecidableEq

namespace Uid

/-- The identifier of up to sixteen bytes, the most significant first. -/
def ofBytes (bytes : Bytes) : Uid :=
  ⟨BitVec.ofNat 128 (bytes.foldl (fun n b => n * 256 + b.toNat) 0)⟩

def toBytes (u : Uid) : Bytes := Digest.bigEndian 16 u.bits.toNat

/-- The identifier of `name` in the namespace `space`: the first half of a digest of both, with the
version and variant bits set. -/
def named (space : Uid) (name : Bytes) : Uid :=
  let digest := (Digest.sha1 (space.toBytes ++ name)).take 16
  ofBytes (digest.mapIdx fun i b =>
    if i = 6 then (b &&& 0x0f) ||| 0x50 else if i = 8 then (b &&& 0x3f) ||| 0x80 else b)

/-- The digit that writes a number below 16. -/
def hexDigit (n : Nat) : Char :=
  if n < 10 then Char.ofNat ('0'.toNat + n) else Char.ofNat ('a'.toNat + (n - 10))

/-- The value of a hexadecimal digit in either letter case. -/
def hexValue? (c : Char) : Option Nat :=
  if '0' ≤ c ∧ c ≤ '9' then some (c.toNat - '0'.toNat)
  else if 'a' ≤ c ∧ c ≤ 'f' then some (c.toNat - 'a'.toNat + 10)
  else if 'A' ≤ c ∧ c ≤ 'F' then some (c.toNat - 'A'.toNat + 10)
  else none

/-- The last `n` hexadecimal digits of a number, the most significant first. -/
def hexDigits : Nat → Nat → List Char
  | 0, _ => []
  | n + 1, value => hexDigits n (value / 16) ++ [hexDigit (value % 16)]

def text (u : Uid) : String :=
  let digits := hexDigits 32 u.bits.toNat
  String.ofList (digits.take 8 ++ '-' :: (digits.drop 8).take 4 ++ '-' :: (digits.drop 12).take 4 ++
    '-' :: (digits.drop 16).take 4 ++ '-' :: digits.drop 20)

/-- The number that hexadecimal digits write. -/
def readDigits? (digits : List Char) : Option Nat :=
  digits.foldlM (fun n c => (hexValue? c).map (n * 16 + ·)) 0

/-- Why a text is no identifier. -/
inductive Fault where
  | character (c : Char) (position : Nat)
  | simpleLength (length : Nat)
  | groupCount (count : Nat)
  | groupLength (group expected found : Nat)
  deriving DecidableEq

def Fault.message : Fault → String
  | .character c position =>
    "invalid character: expected an optional prefix of `urn:uuid:` followed by [0-9a-fA-F-], " ++
      "found `" ++ c.toString ++ "` at " ++ toString position
  | .simpleLength length =>
    "invalid length: expected length 32 for simple format, found " ++ toString length
  | .groupCount count => "invalid group count: expected 5, found " ++ toString count
  | .groupLength group expected found =>
    "invalid group length in group " ++ toString group ++ ": expected " ++ toString expected ++
      ", found " ++ toString found

/-- The text inside braces or after `urn:uuid:`, and the number of bytes before it. -/
def unwrapped (cs : List Char) : Option (List Char × Nat) :=
  if cs.head? = some '\x7b' ∧ cs.getLast? = some '\x7d' ∧ 2 ≤ cs.length then
    some (cs.tail.dropLast, 1)
  else if "urn:uuid:".toList.isPrefixOf cs then some (cs.drop 9, 9)
  else none

/-- The digits of a text in groups of 8, 4, 4, 4 and 12. -/
def ungrouped? (cs : List Char) : Option (List Char) :=
  if cs.length = 36 ∧ [8, 13, 18, 23].all (fun i => cs[i]? = some '-') then
    some (cs.take 8 ++ (cs.drop 9).take 4 ++ (cs.drop 14).take 4 ++ (cs.drop 19).take 4 ++
      cs.drop 24)
  else none

/-- The identifier that `cs` writes. -/
def readChars? (cs : List Char) : Option Uid := do
  let digits ← match unwrapped cs with
    | some (inner, _) => ungrouped? inner
    | none => if cs.length = 32 then some cs else ungrouped? cs
  let value ← readDigits? digits
  some ⟨BitVec.ofNat 128 value⟩

/-- The first character that is neither a hexadecimal digit nor a hyphen, with its byte offset. -/
def badCharacter? : Nat → List Char → Option (Char × Nat)
  | _, [] => none
  | offset, c :: cs =>
    if c = '-' ∨ (hexValue? c).isSome then badCharacter? (offset + c.utf8Size) cs
    else some (c, offset)

/-- The places of the hyphens. -/
def hyphens (cs : List Char) : List Nat :=
  (cs.zipIdx.filter fun p => p.1 = '-').map (·.2)

/-- What is wrong with a text that is no identifier: its first bad character, else the number of its
groups, else the first group of a wrong length. -/
def diagnose (s : String) : Fault :=
  let cs := s.toList
  let (inner, offset, simple) := match unwrapped cs with
    | some (inner, offset) => (inner, offset, false)
    | none => (cs, 0, true)
  match badCharacter? 0 inner with
  | some (c, i) => .character c (i + offset + 1)
  | none =>
    let breaks := hyphens inner
    if breaks.isEmpty ∧ simple then .simpleLength s.utf8ByteSize
    else if breaks.length ≠ 4 then .groupCount (breaks.length + 1)
    else
      match (breaks.zip [(0, 0, 8), (1, 9, 13), (2, 14, 18), (3, 19, 23)]).find?
          fun p => p.1 ≠ p.2.2.2 with
      | some (place, group, first, last) => .groupLength group (last - first) (place - first)
      | none => .groupLength 4 12 (s.utf8ByteSize - 24)

/-- The identifier that `s` writes, or what is wrong with it. -/
def read (s : String) : Except Fault Uid :=
  match readChars? s.toList with
  | some u => .ok u
  | none => .error (diagnose s)

end Uid

end Tenancy
