import Tenancy.Json.Basic

/-!
# Organizations

The payload of an organization, the tenant to which everything else belongs.  Its name is the name
of its resource and is not repeated here.
-/

namespace Tenancy

structure Organization where
  displayName : String
  description : Option String
  websiteUrl : Option String
  createdBy : String
  isActive : Bool
  /-- Values that users attach, keys ascending. -/
  metadata : List (String × Json)

namespace Organization

/-- A new active organization. -/
def new (displayName createdBy : String) : Organization :=
  ⟨displayName, none, none, createdBy, true, []⟩

def deactivate (o : Organization) : Organization := { o with isActive := false }

end Organization

end Tenancy
