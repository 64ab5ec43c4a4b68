import Tenancy.Organization.Ownership
import Tenancy.Store.Authorized
import Tenancy.Store.Blob
import Tenancy.Wire.Organization

/-!
# The resource API

The four collections of which organizations consist, each a store over a container behind an
authorizer.  Organizations come with owner grants; invitations cannot be watched.  An invitation is
accepted in two steps: it is marked, and then the membership is created.  If the second step fails
the invitation stays accepted.
-/

namespace Tenancy

structure ResourceApi (m : Type → Type) where
  organizations : Store m Organization
  billingAccounts : Store m BillingAccount
  memberships : Store m Membership
  invitations : Store m Invitation

namespace ResourceApi

variable {m : Type → Type} [Monad m]

/-- The store of a collection that keeps payloads of a format in a container. -/
def plainStore {α : Type} (format : Json.Format α) (collection : Collection)
    (container : Container m) (config : StoreConfig) (capabilities : Capabilities) : Store m α :=
  BlobStore.store ⟨collection, container, .json format, config, capabilities⟩

/-- The API over a container for each collection.  Owner grants are kept in `grants`. -/
def onContainers (containers : Collection → Container m) (grants : Grants m)
    (authorizer : Authorizer m) (config : StoreConfig) : ResourceApi m where
  organizations :=
    let plain := plainStore Organization.format .organization (containers .organization) config .all
    let effects :=
      [ownerRoleEffect grants .organization, ownerBindingEffect grants .organization]
    (plain.provisioned effects).authorized authorizer config.watchBufferSize
  billingAccounts :=
    (plainStore BillingAccount.format .billingAccount (containers .billingAccount) config
      .all).authorized authorizer config.watchBufferSize
  memberships :=
    (plainStore Membership.format .membership (containers .membership) config .all).authorized
      authorizer config.watchBufferSize
  invitations :=
    (plainStore Invitation.format .invitation (containers .invitation) config
      (Capabilities.all.erase .watch)).authorized authorizer config.watchBufferSize

/-- The collections that are served, each with its verbs. -/
def discovery (api : ResourceApi m) : List (Collection × List Verb) := [
  (api.organizations.collection, api.organizations.capabilities.verbs),
  (api.billingAccounts.collection, api.billingAccounts.capabilities.verbs),
  (api.memberships.collection, api.memberships.capabilities.verbs),
  (api.invitations.collection, api.invitations.capabilities.verbs)]

/-- What accepting at `now` makes of the invitation `name`. -/
def acceptance (name : String) (now : Time) : Mutation m Invitation
  | none => throw (.notFound .invitation name)
  | some invitation =>
    match invitation.accept now with
    | .ok accepted => return accepted
    | .error refusal => throw (.conflict refusal.message)

/-- Accepts the invitation `name` for the actor of the call, who needs to be allowed to update it
and to create memberships. -/
def acceptInvitation (api : ResourceApi m) (call : Call) (name : String) :
    ExceptT StoreError m (Resource Membership) := do
  let (invitation, _) ← api.invitations.update call name (acceptance name call.time) false
  let membership := invitation.payload.membershipFor call.actor.name call.time
  api.memberships.create call (.named membership.objectName membership)

def describe (api : ResourceApi m) : String :=
  let descriptor (served : Collection × List Verb) : String :=
    "ResourceDescriptor \x7b resource: " ++ served.1.kind ++ ", verbs: [" ++
      ", ".intercalate (served.2.map Verb.label) ++ "] \x7d"
  "ResourceApi \x7b resources: [" ++ ", ".intercalate (api.discovery.map descriptor) ++ "] \x7d"

end ResourceApi

end Tenancy
