import Tenancy.Json.Basic

/-!
# Building and querying JSON values

Short ways to build objects, and to ask an object for a member of a certain kind.  A member that is
missing and one of another kind count alike.
-/

namespace Tenancy.Json

instance : Coe String Json := ⟨.string⟩

instance : Coe Bool Json := ⟨.bool⟩

instance : Coe Int Json := ⟨.int⟩

instance : Coe Nat Json := ⟨fun n => .int n⟩

/-- The value, or `null` if there is none. -/
def orNull (j : Option Json) : Json := j.getD .null

def strings (l : List String) : Json := .array (l.map .string)

/-- The object with one more member at its end. -/
def add (j : Json) (key : String) (value : Json) : Json :=
  match j with
  | .object members => .object (members ++ [(key, value)])
  | j => j

/-- The value of a member; `null` if it is missing. -/
def field (j : Json) (key : String) : Json := (j.get? key).getD .null

def textAt? (j : Json) (key : String) : Option String :=
  match j.field key with
  | .string s => some s
  | _ => none

/-- A text, empty if it is missing. -/
def textAt (j : Json) (key : String) : String := (j.textAt? key).getD ""

def flagAt? (j : Json) (key : String) : Option Bool :=
  match j.field key with
  | .bool b => some b
  | _ => none

/-- A flag, false if it is missing. -/
def flagAt (j : Json) (key : String) : Bool := (j.flagAt? key).getD false

def intAt? (j : Json) (key : String) : Option Int :=
  match j.field key with
  | .int n => some n
  | _ => none

/-- An integer, zero if it is missing. -/
def intAt (j : Json) (key : String) : Int := (j.intAt? key).getD 0

def natAt? (j : Json) (key : String) : Option Nat := (j.intAt? key).map Int.toNat

/-- A natural number, zero if it is missing. -/
def natAt (j : Json) (key : String) : Nat := (j.natAt? key).getD 0

def itemsAt? (j : Json) (key : String) : Option (List Json) :=
  match j.field key with
  | .array items => some items
  | _ => none

/-- A list, empty if it is missing. -/
def itemsAt (j : Json) (key : String) : List Json := (j.itemsAt? key).getD []

def asText : Json → String
  | .string s => s
  | _ => ""

def asInt? : Json → Option Int
  | .int n => some n
  | _ => none

/-- The texts in a list. -/
def textsAt (j : Json) (key : String) : List String := (j.itemsAt key).map asText

/-- The integers in a list. -/
def intsAt (j : Json) (key : String) : List Int := (j.itemsAt key).filterMap asInt?

mutual

/-- The value with every text in it, keys included, replaced by its image. -/
def mapTexts (f : String → String) : Json → Json
  | .string s => .string (f s)
  | .array items => .array (mapItems f items)
  | .object members => .object (mapMembers f members)
  | j => j

def mapItems (f : String → String) : List Json → List Json
  | [] => []
  | item :: items => mapTexts f item :: mapItems f items

def mapMembers (f : String → String) : List (String × Json) → List (String × Json)
  | [] => []
  | member :: members => (f member.1, mapTexts f member.2) :: mapMembers f members

end

end Tenancy.Json
