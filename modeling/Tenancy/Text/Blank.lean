/-!
# White space

The Unicode property `White_Space`: twenty-five characters, of which six are ASCII.
-/

namespace Tenancy

/-- The character has the property `White_Space`. -/
def isBlank (c : Char) : Bool :=
  let n := c.toNat
  (0x09 ≤ n && n ≤ 0x0d) || n == 0x20 || n == 0x85 || n == 0xa0 || n == 0x1680 ||
    (0x2000 ≤ n && n ≤ 0x200a) || n == 0x2028 || n == 0x2029 || n == 0x202f || n == 0x205f ||
    n == 0x3000

/-- The text has no character but white space. -/
def isBlankText (s : String) : Bool := s.toList.all isBlank

/-- The characters after the leading white space. -/
def skipBlank (cs : List Char) : List Char := cs.dropWhile isBlank

end Tenancy
