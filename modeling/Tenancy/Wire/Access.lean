import Tenancy.Access.Grant
import Tenancy.Wire.Scalar

/-!
# Wire forms of access control

Verbs, permissions, requests, decisions, roles and bindings as JSON.
-/

namespace Tenancy

open Json

def Verb.format : Format Verb := .choice (Verb.operations ++ [.all]) Verb.text

def Collection.format : Format Collection := .choice Collection.all Collection.wireName

/-- A permission for all objects is written without a name. -/
def Permission.format : Format Permission :=
  (Format.record "Permission"
    (.cons (.required "resource" Collection.format)
      (.cons (.required "verb" Verb.format)
        (.cons { key := "resource_name", format := Format.text.optional, hidden := Option.isNone }
          .nil)))).imap
    (fun (collection, verb, name, ()) => ⟨collection, verb, name⟩)
    (fun p => (p.collection, p.verb, p.name, ()))

/-- The order in which the members of each set come when it is written.  A set has no order of its
own: its members may come in any, and those of an equal set in another. -/
structure PermissionSet.Order where
  arrange : PermissionSet → List Permission
  perm : ∀ s, (arrange s).Perm s.toList

def PermissionSet.Order.ascending : PermissionSet.Order := ⟨toList, fun _ => .refl _⟩

/-- What is written for a set whose members come in the given order. -/
def PermissionSet.listing : Format (List Permission) :=
  (Format.record "PermissionSet"
    (.cons (.required "permissions" Permission.format.list) .nil)).imap
    (fun (members, ()) => members) (fun members => (members, ()))

def PermissionSet.format (order : PermissionSet.Order) : Format PermissionSet :=
  PermissionSet.listing.imap .ofList order.arrange

def Actor.format : Format Actor :=
  (Format.record "Actor"
    (.cons (.required "name" .text) (.cons (.defaulted "groups" Format.text.list []) .nil))).imap
    (fun (name, groups, ()) => ⟨name, groups⟩) (fun a => (a.name, a.groups, ()))

def Coordinates.format : Format Coordinates :=
  (Format.record "ResourceCoordinates"
    (.cons (.required "resource" Collection.format)
      (.cons (.required "name" Format.text.optional) .nil))).imap
    (fun (collection, name, ()) => ⟨collection, name⟩) (fun c => (c.collection, c.name, ()))

def AccessRequest.format : Format AccessRequest :=
  (Format.record "AuthorizationRequest"
    (.cons (.required "actor" Actor.format)
      (.cons (.required "verb" Verb.format)
        (.cons (.required "coordinates" Coordinates.format) .nil)))).imap
    (fun (actor, verb, coordinates, ()) => ⟨actor, verb, coordinates⟩)
    (fun q => (q.actor, q.verb, q.coordinates, ()))

def Decision.format : Format Decision :=
  .union [.bare "Allow" .allow, .carrying "Deny" Format.text .deny] fun
    | .allow => .string "Allow"
    | .deny reason => .object [("Deny", .string reason)]

def Role.format (order : PermissionSet.Order) : Format Role :=
  (Format.record "Role"
    (.cons (.required "name" .text)
      (.cons (.required "permissions" PermissionSet.listing)
        (.cons (.required "created_at" Time.format) .nil)))).imap
    (fun (name, members, createdAt, ()) => ⟨name, .ofList members, createdAt⟩)
    (fun r => (r.name, order.arrange r.permissions, r.createdAt, ()))

def RoleBinding.format : Format RoleBinding :=
  (Format.record "RoleBinding"
    (.cons (.required "name" .text)
      (.cons (.required "role" .text)
        (.cons (.required "subject" .text)
          (.cons (.required "created_at" Time.format) .nil))))).imap
    (fun (name, role, subject, createdAt, ()) => ⟨name, role, subject, createdAt⟩)
    (fun b => (b.name, b.role, b.subject, b.createdAt, ()))

end Tenancy
