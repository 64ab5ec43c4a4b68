import Tenancy.Text.Keyword

/-!
# Collections

The collections of resources: tenants and their parts, billing, and the two that carry access
control.
-/

namespace Tenancy

inductive Collection where
  | organization
  | billingAccount
  | invitation
  | membership
  | role
  | roleBinding
  deriving DecidableEq, Repr, Inhabited

namespace Collection

/-- All collections in canonical order. -/
def all : List Collection :=
  [.organization, .billingAccount, .invitation, .membership, .role, .roleBinding]

/-- The place of the collection in the canonical order. -/
def index : Collection → Nat
  | .organization => 0
  | .billingAccount => 1
  | .invitation => 2
  | .membership => 3
  | .role => 4
  | .roleBinding => 5

/-- The name of the collection in permissions and messages. -/
def text : Collection → String
  | .organization => "organizations"
  | .billingAccount => "billingaccounts"
  | .invitation => "invitations"
  | .membership => "memberships"
  | .role => "roles"
  | .roleBinding => "rolebindings"

/-- The name of a single object of the collection. -/
def kind : Collection → String
  | .organization => "Organization"
  | .billingAccount => "BillingAccount"
  | .invitation => "Invitation"
  | .membership => "Membership"
  | .role => "Role"
  | .roleBinding => "RoleBinding"

/-- The name of the collection on the wire. -/
def wireName : Collection → String
  | .organization => "organization"
  | .billingAccount => "billingaccount"
  | .invitation => "invitation"
  | .membership => "membership"
  | .role => "role"
  | .roleBinding => "rolebinding"

/-- The spellings of collections: plural and singular. -/
def spellings : List (String × Collection) :=
  all.map (fun c => (c.text, c)) ++ all.map fun c => (c.wireName, c)

/-- The collection that a text spells, in any letter case. -/
def parse? (s : String) : Option Collection := keyword? spellings s

/-- The objects of the collection carry access control. -/
def isAccessControl : Collection → Bool
  | .role | .roleBinding => true
  | _ => false

end Collection

end Tenancy
