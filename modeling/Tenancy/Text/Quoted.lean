import Tenancy.Text.Combining
import Tenancy.Text.Unprintable

/-!
# Quoted text in messages

Messages show a character or a text between quotes with everything that would not be seen written
as an escape: the common controls by letter, the quote itself and the backslash by a backslash, and
any other combining or unprintable character by its code point in hexadecimal.
-/

namespace Tenancy

/-- The number in lower-case hexadecimal, without leading zeros. -/
def hexadecimal (n : Nat) : String := String.ofList (Nat.toDigits 16 n)

/-- The form of `c` between two `quote` characters. -/
def escaped (quote c : Char) : String :=
  if c = '\x00' then "\\0"
  else if c = '\t' then "\\t"
  else if c = '\r' then "\\r"
  else if c = '\n' then "\\n"
  else if c = '\\' then "\\\\"
  else if c = quote then String.ofList ['\\', quote]
  else if isCombining c || !isPrintable c then "\\u\x7b" ++ hexadecimal c.toNat ++ "\x7d"
  else c.toString

/-- A character between single quotes. -/
def quotedChar (c : Char) : String := "'" ++ escaped '\'' c ++ "'"

/-- A text between double quotes. -/
def quoted (s : String) : String := "\"" ++ String.join (s.toList.map (escaped '"')) ++ "\""

end Tenancy
