/-!
# Keywords in any letter case

Keywords of the permission language consist of ASCII letters and are read in any letter case.
Lower-casing ASCII letters is enough: the only characters outside ASCII whose lower-case form
begins with an ASCII letter are `K` (U+212A) and `İ`, and they give a `k`, which no keyword has,
and a form that contains a combining dot.
-/

namespace Tenancy

/-- The text with its ASCII capitals in lower case. -/
def lowercase (s : String) : String := String.ofList (s.toList.map Char.toLower)

/-- The meaning of a keyword in a table of spellings, read in any letter case. -/
def keyword? {α : Type} (table : List (String × α)) (s : String) : Option α :=
  table.lookup (lowercase s)

end Tenancy
