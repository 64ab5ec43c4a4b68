/-!
# UTF-8 text

Payloads and tokens are byte strings, names and messages are text.  This module fixes the passage
between the two and the two measures that depend on it: the length of a text in bytes and its
longest beginning that fits a number of bytes without splitting a character.
-/

namespace Tenancy

/-- A byte string. -/
abbrev Bytes := List UInt8

/-- The UTF-8 form of a text. -/
def utf8 (s : String) : Bytes := s.toUTF8.data.toList

/-- The text that has the given UTF-8 form, if there is one. -/
def ofUtf8? (bytes : Bytes) : Option String := String.fromUTF8? ⟨bytes.toArray⟩

/-- The longest beginning of `cs` whose UTF-8 form has at most `room` bytes. -/
def takeBytes : Nat → List Char → List Char
  | _, [] => []
  | room, c :: cs => if c.utf8Size ≤ room then c :: takeBytes (room - c.utf8Size) cs else []

/-- The longest beginning of `s` that has at most `room` bytes and ends between characters. -/
def clipBytes (room : Nat) (s : String) : String := String.ofList (takeBytes room s.toList)

end Tenancy
