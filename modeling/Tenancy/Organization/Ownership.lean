import Tenancy.Access.Grant
import Tenancy.Digest.Sha256
import Tenancy.Store.Name
import Tenancy.Store.Provisioned

/-!
# Ownership

Whoever creates a resource owns it: a role that permits everything on this one resource is created
with it, and a binding of the creator to that role.  Both are named for the resource.  A name that
would be too long is cut and ends in a part of a digest instead, so that long names stay apart.
-/

namespace Tenancy

/-- The number of digits of the digest that a shortened name ends in. -/
def hashLength : Nat := 10

/-- The two hexadecimal digits of a byte. -/
def byteDigits (b : UInt8) : List Char := [Uid.hexDigit (b.toNat / 16), Uid.hexDigit (b.toNat % 16)]

/-- The first digits of the digest of a name. -/
def nameHash (natural : String) : String :=
  String.ofList (((Digest.sha256 (utf8 natural)).flatMap byteDigits).take hashLength)

/-- The full name of a grant for the resource `name`. -/
def naturalGrantName (collection : Collection) (name suffix : String) : String :=
  collection.text ++ "-" ++ name ++ "-" ++ suffix

/-- A name cut to the longest allowed length, with a digest at its end. -/
def shortenedName (natural : String) : String :=
  clipBytes (maxNameLength - hashLength - 1) natural ++ "-" ++ nameHash natural

/-- The name of a grant for the resource `name`. -/
def grantObjectName (collection : Collection) (name suffix : String) : String :=
  let natural := naturalGrantName collection name suffix
  if natural.utf8ByteSize ≤ maxNameLength then natural else shortenedName natural

/-- The suffix of the names of owner grants. -/
def ownerSuffix : String := "owner"

/-- The name of the owner role and of the owner binding of a resource. -/
def ownerName (collection : Collection) (name : String) : String :=
  grantObjectName collection name ownerSuffix

/-- The collection of what an error of grants calls `kind`. -/
def grantCollection (kind : String) : Collection :=
  if kind = RoleBinding.kind then .roleBinding else .role

/-- The error of a store that keeps grants with its resources. -/
def GrantError.toStoreError : GrantError → StoreError
  | .alreadyExists kind name => .alreadyExists (grantCollection kind) name
  | .notFound kind name => .notFound (grantCollection kind) name
  | .unavailable reason => .internal reason

/-- What the owner of a resource may do. -/
def ownerPermissions (collection : Collection) (name : String) : PermissionSet :=
  .singleton (.named collection .all name)

/-- The owner role of a resource. -/
def ownerRole (collection : Collection) (name : String) (time : Time) : Role :=
  ⟨ownerName collection name, ownerPermissions collection name, time⟩

/-- The binding of a resource's creator to its owner role. -/
def ownerBinding (collection : Collection) (name creator : String) (time : Time) : RoleBinding :=
  ⟨ownerName collection name, ownerName collection name, creator, time⟩

variable {m : Type → Type} [Monad m] {α : Type}

/-- A deletion to which it is no error that nothing was there. -/
def ignoringAbsence (x : ExceptT GrantError m Unit) : ExceptT StoreError m Unit := do
  match ← ExceptT.lift x.run with
  | .ok () => return
  | .error e => if e.isNotFound then return else throw e.toStoreError

/-- The side effect that makes the owner role of a resource. -/
def ownerRoleEffect (grants : Grants m) (collection : Collection) : SideEffect m α where
  kind := "owner-role"
  perform call resource := do
    let _ ← (grants.createRole (ownerRole collection resource.name call.time)).adapt
      GrantError.toStoreError
  undo _ resource := ignoringAbsence (grants.deleteRole (ownerName collection resource.name))

/-- The side effect that binds the creator of a resource to its owner role. -/
def ownerBindingEffect (grants : Grants m) (collection : Collection) : SideEffect m α where
  kind := "owner-binding"
  perform call resource := do
    let binding := ownerBinding collection resource.name call.actor.name call.time
    let _ ← (grants.createBinding binding).adapt GrantError.toStoreError
  undo _ resource := ignoringAbsence (grants.deleteBinding (ownerName collection resource.name))

end Tenancy
