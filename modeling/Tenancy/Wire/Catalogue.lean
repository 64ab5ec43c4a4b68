import Tenancy.Store.Codec
import Tenancy.Wire.Access
import Tenancy.Wire.Billing
import Tenancy.Wire.Feed
import Tenancy.Wire.Organization
import Tenancy.Wire.Store

/-!
# The catalogue of wire forms

All types with a wire form by their names on the wire, each with what reading a text and writing its
value again gives: the one form that the type has for this value, if sets come in ascending order.
-/

namespace Tenancy

open Json

/-- The text that is written for the value of a text. -/
def standardText {α : Type} (format : Format α) (bytes : Bytes) : Except CodecError Bytes := do
  (Codec.json format).encode (← (Codec.json format).decode bytes)

/-- The types with a wire form. -/
def wireForms : List (String × (Bytes → Except CodecError Bytes)) := [
  ("String", standardText .text),
  ("Value", standardText .any),
  ("Unit", standardText .unit),
  ("Verb", standardText Verb.format),
  ("ResourceType", standardText Collection.format),
  ("Permission", standardText Permission.format),
  ("PermissionSet", standardText (PermissionSet.format .ascending)),
  ("Actor", standardText Actor.format),
  ("ResourceCoordinates", standardText Coordinates.format),
  ("AuthorizationRequest", standardText AccessRequest.format),
  ("Decision", standardText Decision.format),
  ("Role", standardText (Role.format .ascending)),
  ("RoleBinding", standardText RoleBinding.format),
  ("EventType", standardText EventType.format),
  ("Status", standardText Status.format),
  ("WatchEvent", standardText (Event.format .text)),
  ("ObjectMeta", standardText ObjectMeta.format),
  ("Resource", standardText (Resource.format .text)),
  ("ResourceList", standardText (Page.format .text)),
  ("ListOptions", standardText ListOptions.format),
  ("StoreConfig", standardText StoreConfig.format),
  ("Organization", standardText Organization.format),
  ("BillingAccount", standardText BillingAccount.format),
  ("ErpLink", standardText RecordLink.format),
  ("Plan", standardText Plan.format),
  ("Invitation", standardText Invitation.format),
  ("InvitationStatus", standardText InvitationStatus.format),
  ("Membership", standardText Membership.format),
  ("OrganizationRole", standardText OrganizationRole.format),
  ("RecordKind", standardText RecordKind.format),
  ("PartnerRecord", standardText PartnerRecord.format),
  ("ScavengerConfig", standardText ScavengerConfig.format),
  ("SweepReport", standardText SweepReport.format)]

end Tenancy
