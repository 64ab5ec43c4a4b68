import Tenancy.Access.PermissionSet
import Tenancy.Access.Request
import Tenancy.Time.Basic

/-!
# Grants

A role is a named set of permissions, and a role binding gives one role to one subject: an actor, or
every member of a group.  `Grants` is what a keeper of roles and bindings can be asked.
-/

namespace Tenancy

structure Role where
  name : String
  permissions : PermissionSet
  createdAt : Time
  deriving DecidableEq

structure RoleBinding where
  name : String
  /-- The name of the role that is given. -/
  role : String
  /-- The name of an actor, or a group after `groupMark`. -/
  subject : String
  createdAt : Time
  deriving DecidableEq

/-- What begins the subject of a binding to a group. -/
def groupMark : String := "group:"

/-- The subject that stands for the members of a group. -/
def groupSubject (group : String) : String := groupMark ++ group

/-- What of `cs` follows `mark`, if it begins with it. -/
def afterMark? (mark : List Char) (cs : List Char) : Option (List Char) :=
  match mark, cs with
  | [], cs => some cs
  | _ :: _, [] => none
  | m :: mark, c :: cs => if m = c then afterMark? mark cs else none

/-- The group that a subject stands for, if it is not a single actor. -/
def subjectGroup? (subject : String) : Option String :=
  (afterMark? groupMark.toList subject.toList).map String.ofList

/-- The binding is to the actor, or to one of the actor's groups. -/
def RoleBinding.appliesTo (b : RoleBinding) (actor : Actor) : Bool :=
  match subjectGroup? b.subject with
  | some group => actor.isIn group
  | none => b.subject = actor.name

/-- What an error about a role calls it. -/
def Role.kind : String := "Role"

/-- What an error about a binding calls it. -/
def RoleBinding.kind : String := "RoleBinding"

/-- Why a grant operation failed.  The kind says what the operation was about: a keeper may have
kinds of its own. -/
inductive GrantError where
  | alreadyExists (kind name : String)
  | notFound (kind name : String)
  | unavailable (reason : String)
  deriving DecidableEq

namespace GrantError

def message : GrantError → String
  | .alreadyExists kind name => kind ++ " \"" ++ name ++ "\" already exists"
  | .notFound kind name => kind ++ " \"" ++ name ++ "\" not found"
  | .unavailable reason => "Grant store unavailable: " ++ reason

def isNotFound : GrantError → Bool
  | .notFound _ _ => true
  | _ => false

end GrantError

/-- A keeper of roles and bindings. -/
structure Grants (m : Type → Type) where
  createRole : Role → ExceptT GrantError m Role
  getRole : String → ExceptT GrantError m Role
  deleteRole : String → ExceptT GrantError m Unit
  createBinding : RoleBinding → ExceptT GrantError m RoleBinding
  getBinding : String → ExceptT GrantError m RoleBinding
  deleteBinding : String → ExceptT GrantError m Unit

end Tenancy
