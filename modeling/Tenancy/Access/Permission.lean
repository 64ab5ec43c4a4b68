import Tenancy.Access.Collection
import Tenancy.Access.Verb
import Tenancy.KeyOrder

/-!
# Permissions

A permission is a verb on a collection, for all of its objects or for a single name.  Its text is
`collection:verb` or `collection:verb:name`; the name is everything after the second colon, so it
may hold colons itself and may be empty.

* `Permission.covers`: a granted permission answers a requested one.  A permission for a name never
  covers a request that has none.
* Permissions are ordered by collection, verb and name, so that a set of them has one form.
-/

namespace Tenancy

structure Permission where
  collection : Collection
  verb : Verb
  /-- The one object that the permission is for; all objects if there is none. -/
  name : Option String
  deriving DecidableEq, Repr

/-- What precedes the first colon, and what follows it if there is one. -/
def cutAtColon : List Char → List Char × Option (List Char)
  | [] => ([], none)
  | c :: cs =>
    if c = ':' then ([], some cs)
    else
      let (before, after) := cutAtColon cs
      (c :: before, after)

namespace Permission

/-- The permission for all objects. -/
def global (collection : Collection) (verb : Verb) : Permission := ⟨collection, verb, none⟩

/-- The permission for the object of one name. -/
def named (collection : Collection) (verb : Verb) (name : String) : Permission :=
  ⟨collection, verb, some name⟩

def isGlobal (p : Permission) : Bool := p.name.isNone

def text (p : Permission) : String :=
  match p.name with
  | some name => p.collection.text ++ ":" ++ p.verb.text ++ ":" ++ name
  | none => p.collection.text ++ ":" ++ p.verb.text

/-- The permission that a text writes. -/
def parse? (s : String) : Option Permission :=
  match cutAtColon s.toList with
  | (_, none) => none
  | (collection, some rest) => do
    let (verb, name) := cutAtColon rest
    let collection ← Collection.parse? (String.ofList collection)
    let verb ← Verb.parse? (String.ofList verb)
    some ⟨collection, verb, name.map String.ofList⟩

/-- A granted permission covers a requested one: same collection, a verb that implies the requested
one, and for all objects or for the same name. -/
def covers (granted requested : Permission) : Bool :=
  granted.collection = requested.collection && granted.verb.implies requested.verb &&
    match granted.name, requested.name with
    | none, _ => true
    | some _, none => false
    | some a, some b => a = b

theorem index_inj_collection {c d : Collection} (hIndex : c.index = d.index) : c = d := by
  cases c <;> cases d <;> first | rfl | cases hIndex

theorem index_inj_verb {v w : Verb} (hIndex : v.index = w.index) : v = w := by
  cases v <;> cases w <;> first | rfl | cases hIndex

/-- The order by collection, verb and name. -/
instance : KeyOrder Permission :=
  .ofKey (fun p => (p.collection.index, p.verb.index, p.name)) fun p q hKey => by
    obtain ⟨hCollection, hVerb, hName⟩ := by simpa using hKey
    cases p
    cases q
    cases index_inj_collection hCollection
    cases index_inj_verb hVerb
    cases hName
    rfl

end Permission

end Tenancy
