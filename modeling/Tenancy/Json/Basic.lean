import Tenancy.SortedMap
import Tenancy.Text.Utf8

/-!
# JSON values

A JSON value as a tree.  Objects are lists of members in the order in which they were written, so a
tree can hold a repeated key; `Json.sortMembers` puts the members in the order of their keys and
keeps the last of those with equal keys.  A number without fraction and exponent is an integer if
it fits 64 bits, signed or unsigned, and otherwise a floating-point number, like every other.
-/

namespace Tenancy

inductive Json where
  | null
  | bool (b : Bool)
  | int (n : Int)
  | float (x : Float)
  | string (s : String)
  | array (items : List Json)
  | object (members : List (String × Json))

namespace Json

instance : Inhabited Json := ⟨.null⟩

/-- The value of a member of an object. -/
def get? (j : Json) (key : String) : Option Json :=
  match j with
  | .object members => members.lookup key
  | _ => none

/-- The members with ascending keys; of equal keys the last counts. -/
def sortMembers (members : List (String × Json)) : List (String × Json) :=
  members.foldl (fun sorted member => insertEntry member.1 member.2 sorted) []

end Json

end Tenancy
