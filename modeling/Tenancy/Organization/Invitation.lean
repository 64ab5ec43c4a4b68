import Tenancy.Organization.Membership
import Tenancy.Time.Printer

/-!
# Invitations

An invitation offers a role in an organization until it expires.  It can be answered once, while it
is pending: accepted, which makes a membership, or declined.
-/

namespace Tenancy

inductive InvitationStatus where
  | pending
  | accepted
  | declined
  deriving DecidableEq

namespace InvitationStatus

def all : List InvitationStatus := [.pending, .accepted, .declined]

def text : InvitationStatus → String
  | .pending => "pending"
  | .accepted => "accepted"
  | .declined => "declined"

/-- The form in messages. -/
def label : InvitationStatus → String
  | .pending => "Pending"
  | .accepted => "Accepted"
  | .declined => "Declined"

end InvitationStatus

structure Invitation where
  organization : String
  email : String
  role : OrganizationRole
  invitedBy : String
  status : InvitationStatus
  expiresAt : Time
  deriving DecidableEq

namespace Invitation

/-- How many days an invitation can be answered. -/
def ttlDays : Nat := 7

/-- A new invitation, pending from `now` on. -/
def new (organization email : String) (role : OrganizationRole) (invitedBy : String) (now : Time) :
    Invitation :=
  ⟨organization, email, role, invitedBy, .pending, now.after (ttlDays * 86400)⟩

/-- The invitation has expired at `now`. -/
def isExpired (i : Invitation) (now : Time) : Bool := i.expiresAt ≤ now

/-- The invitation can be answered at `now`. -/
def isPending (i : Invitation) (now : Time) : Bool := i.status = .pending && !i.isExpired now

/-- Why an invitation cannot be answered. -/
inductive Refusal where
  | answered (email : String) (status : InvitationStatus)
  | expired (email : String) (time : Time)
  deriving DecidableEq

def Refusal.message : Refusal → String
  | .answered email status => "invitation for " ++ email ++ " is already " ++ status.label
  | .expired email time => "invitation for " ++ email ++ " expired at " ++ time.messageText

/-- The invitation with an answer given at `now`. -/
def answer (i : Invitation) (now : Time) (status : InvitationStatus) : Except Refusal Invitation :=
  if i.status ≠ .pending then .error (.answered i.email i.status)
  else if i.isExpired now then .error (.expired i.email i.expiresAt)
  else .ok { i with status := status }

def accept (i : Invitation) (now : Time) : Except Refusal Invitation := i.answer now .accepted

def decline (i : Invitation) (now : Time) : Except Refusal Invitation := i.answer now .declined

/-- The membership that the invitation gives to `member`. -/
def membershipFor (i : Invitation) (member : String) (joinedAt : Time) : Membership :=
  { Membership.new i.organization member i.role joinedAt with invitedBy := some i.invitedBy }

end Invitation

end Tenancy
