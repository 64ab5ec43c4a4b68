import Tenancy.Organization.Account
import Tenancy.Organization.Basic
import Tenancy.Organization.Invitation
import Tenancy.Wire.Scalar

/-!
# Wire forms of organizations

The payloads of the collections that organizations consist of, as JSON.  These are also the forms in
which they are stored.
-/

namespace Tenancy

open Json

def OrganizationRole.format : Format OrganizationRole :=
  .choice OrganizationRole.all OrganizationRole.text

def Organization.format : Format Organization :=
  (Format.record "Organization"
    (.cons (.required "display_name" .text)
      (.cons (.omittable "description" .text)
        (.cons (.omittable "website_url" .text)
          (.cons (.required "created_by" .text)
            (.cons (.required "is_active" .bool)
              (.cons (.defaulted "metadata" .members []) .nil))))))).imap
    (fun (displayName, description, websiteUrl, createdBy, isActive, metadata, ()) =>
      ⟨displayName, description, websiteUrl, createdBy, isActive, metadata⟩)
    (fun o =>
      (o.displayName, o.description, o.websiteUrl, o.createdBy, o.isActive, o.metadata, ()))

def Membership.format : Format Membership :=
  (Format.record "Membership"
    (.cons (.required "organization" .text)
      (.cons (.required "member" .text)
        (.cons (.required "role" OrganizationRole.format)
          (.cons (.required "joined_at" Time.format)
            (.cons (.omittable "invited_by" .text)
              (.cons (.required "is_active" .bool)
                (.cons (.omittable "title" .text) .nil)))))))).imap
    (fun (organization, member, role, joinedAt, invitedBy, isActive, title, ()) =>
      ⟨organization, member, role, joinedAt, invitedBy, isActive, title⟩)
    (fun s =>
      (s.organization, s.member, s.role, s.joinedAt, s.invitedBy, s.isActive, s.title, ()))

def InvitationStatus.format : Format InvitationStatus :=
  .choice InvitationStatus.all InvitationStatus.text

def Invitation.format : Format Invitation :=
  (Format.record "Invitation"
    (.cons (.required "organization" .text)
      (.cons (.required "email" .text)
        (.cons (.required "role" OrganizationRole.format)
          (.cons (.required "invited_by" .text)
            (.cons (.required "status" InvitationStatus.format)
              (.cons (.required "expires_at" Time.format) .nil))))))).imap
    (fun (organization, email, role, invitedBy, status, expiresAt, ()) =>
      ⟨organization, email, role, invitedBy, status, expiresAt⟩)
    (fun i => (i.organization, i.email, i.role, i.invitedBy, i.status, i.expiresAt, ()))

def Plan.format : Format Plan := .choice Plan.all Plan.text

def RecordLink.format : Format RecordLink :=
  (Format.record "ErpLink"
    (.cons (.required "company_id" .signed) (.cons (.required "invoice_id" .signed) .nil))).imap
    (fun (companyId, invoiceId, ()) => ⟨companyId, invoiceId⟩)
    (fun l => (l.companyId, l.invoiceId, ()))

def BillingAccount.format : Format BillingAccount :=
  (Format.record "BillingAccount"
    (.cons (.required "organization" .text)
      (.cons (.required "legal_name" .text)
        (.cons (.required "billing_email" .text)
          (.cons (.required "currency" .text)
            (.cons (.defaulted "plan" Plan.format .standard)
              (.cons (.omittable "erp" RecordLink.format) .nil))))))).imap
    (fun (organization, legalName, billingEmail, currency, plan, link, ()) =>
      ⟨organization, legalName, billingEmail, currency, plan, link⟩)
    (fun a => (a.organization, a.legalName, a.billingEmail, a.currency, a.plan, a.link, ()))

end Tenancy
