import Tenancy.Text.Keyword

/-!
# Verbs

The six operations on resources, and the wildcard that a grant may hold in their place.
-/

namespace Tenancy

inductive Verb where
  | get
  | list
  | watch
  | create
  | update
  | delete
  | all
  deriving DecidableEq, Repr

namespace Verb

/-- The verbs of operations, in canonical order. -/
def operations : List Verb := [.get, .list, .watch, .create, .update, .delete]

/-- The name of the verb in permissions and on the wire. -/
def text : Verb → String
  | .get => "get"
  | .list => "list"
  | .watch => "watch"
  | .create => "create"
  | .update => "update"
  | .delete => "delete"
  | .all => "*"

/-- The name of the verb in descriptions of stores. -/
def label : Verb → String
  | .get => "Get"
  | .list => "List"
  | .watch => "Watch"
  | .create => "Create"
  | .update => "Update"
  | .delete => "Delete"
  | .all => "All"

/-- The spellings of verbs. -/
def spellings : List (String × Verb) := [
  ("get", .get), ("read", .get), ("list", .list), ("watch", .watch), ("create", .create),
  ("update", .update), ("patch", .update), ("delete", .delete), ("remove", .delete), ("*", .all),
  ("all", .all)]

/-- The verb that a text spells, in any letter case. -/
def parse? (s : String) : Option Verb := keyword? spellings s

/-- A grant of the first verb holds for the second: the wildcard for every verb, any other only for
itself.  In particular no verb that writes implies `get`. -/
def implies (granted requested : Verb) : Bool := granted = .all || granted = requested

/-- The verb is about a whole collection. -/
def isCollection : Verb → Bool
  | .list | .watch => true
  | _ => false

/-- The verb changes resources. -/
def isWrite : Verb → Bool
  | .create | .update | .delete => true
  | _ => false

/-- The place of the verb in the canonical order. -/
def index : Verb → Nat
  | .get => 0
  | .list => 1
  | .watch => 2
  | .create => 3
  | .update => 4
  | .delete => 5
  | .all => 6

end Verb

end Tenancy
