import Tenancy.Access.Permission
import Tenancy.SortedMap

/-!
# Sets of permissions

A permission set is a finite set with one form: adding the same permissions in any order gives the
same set.  `PermissionSet.has` is the question that grants are asked: the set has a permission if
some member covers it.
-/

namespace Tenancy

/-- A finite set of permissions. -/
structure PermissionSet where
  members : SortedMap Permission Unit
  deriving DecidableEq, Inhabited

namespace PermissionSet

def empty : PermissionSet := ⟨∅⟩

instance : EmptyCollection PermissionSet := ⟨empty⟩

/-- The members in canonical order. -/
def toList (s : PermissionSet) : List Permission := s.members.keys

def size (s : PermissionSet) : Nat := s.members.size

def isEmpty (s : PermissionSet) : Bool := s.members.isEmpty

def contains (s : PermissionSet) (p : Permission) : Bool := s.members.contains p

def insert (s : PermissionSet) (p : Permission) : PermissionSet := ⟨s.members.insert p ()⟩

def erase (s : PermissionSet) (p : Permission) : PermissionSet := ⟨s.members.erase p⟩

/-- The set with the permissions of a list added one after the other. -/
def insertAll (s : PermissionSet) (ps : List Permission) : PermissionSet := ps.foldl insert s

/-- The members of either set. -/
def union (s t : PermissionSet) : PermissionSet := s.insertAll t.toList

def ofList (ps : List Permission) : PermissionSet := insertAll ∅ ps

def singleton (p : Permission) : PermissionSet := ofList [p]

/-- The set of the permissions that the texts write; texts that write none are passed over. -/
def ofTexts (texts : List String) : PermissionSet := ofList (texts.filterMap Permission.parse?)

/-- The set grants a requested permission.  Looking for the permission itself first settles the
common case and never changes the answer. -/
def has (s : PermissionSet) (requested : Permission) : Bool :=
  s.contains requested || s.toList.any (·.covers requested)

/-- The texts of the members, ascending. -/
def texts (s : PermissionSet) : List String := sortTexts (s.toList.map Permission.text)

end PermissionSet

end Tenancy
