import Tenancy.Json.Format
import Tenancy.Store.Contract

/-!
# Changes of payloads

Mutations as data: what an update is to make of a payload, said on its JSON form.
-/

namespace Tenancy

open Json

inductive Change where
  | fail (e : StoreError)
  | replaceBy (value : Json)
  /-- Adds to the end of a text. -/
  | append (text : String)
  /-- Puts the payload inside so many lists. -/
  | wrap (count : Nat)
  /-- Sets members of an object. -/
  | merge (members : List (String × Json))

namespace Change

/-- The value inside `count` lists. -/
def wrapped : Nat → Json → Json
  | 0, j => j
  | count + 1, j => wrapped count (.array [j])

def membersOf : Option Json → List (String × Json)
  | some (.object members) => members
  | _ => []

/-- The members with others set. -/
def mergeInto (members set : List (String × Json)) : List (String × Json) :=
  set.foldl (fun sorted member => insertEntry member.1 member.2 sorted) (sortMembers members)

/-- What the change makes of a payload. -/
def apply : Change → Option Json → Except StoreError Json
  | .fail e, _ => .error e
  | .replaceBy value, _ => .ok value
  | .append _, none => .error (.internal "missing")
  | .append text, some (.string old) => .ok (.string (old ++ text))
  | .append text, some _ => .ok (.string text)
  | .wrap count, old => .ok (wrapped count (old.getD .null))
  | .merge members, old => .ok (.object (mergeInto (membersOf old) members))

/-- The change as a mutation of payloads with the given format.  `observe` is told what the mutation
is given. -/
def mutation {m : Type → Type} [Monad m] {α : Type} (format : Format α)
    (observe : Option Json → m Unit) (change : Change) : Mutation m α := fun old => do
  let old := old.map format.toJson
  ExceptT.lift (observe old)
  let new ← change.apply old
  match format.ofTree new with
  | .ok payload => return payload
  | .error fault => throw (.internal fault.message)

end Change

end Tenancy
