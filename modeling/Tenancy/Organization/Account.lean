/-!
# Billing accounts

A billing account ties an organization to a plan and to the partner records that represent it in the
record system for billing.
-/

namespace Tenancy

inductive Plan where
  | free
  | team
  | enterprise
  deriving DecidableEq

namespace Plan

def all : List Plan := [.free, .team, .enterprise]

/-- The plan of a new account. -/
def standard : Plan := .free

/-- The number of members that the plan allows, if it has a limit. -/
def seatLimit : Plan → Option Nat
  | .free => some 1
  | .team => some 50
  | .enterprise => none

def text : Plan → String
  | .free => "free"
  | .team => "team"
  | .enterprise => "enterprise"

end Plan

/-- The two records that represent an account. -/
structure RecordLink where
  companyId : Int
  invoiceId : Int
  deriving DecidableEq

structure BillingAccount where
  organization : String
  legalName : String
  billingEmail : String
  currency : String
  plan : Plan
  /-- The records of the account, once there are any. -/
  link : Option RecordLink
  deriving DecidableEq

namespace BillingAccount

/-- The currency of a new account. -/
def standardCurrency : String := "USD"

def new (organization legalName billingEmail : String) : BillingAccount :=
  ⟨organization, legalName, billingEmail, standardCurrency, .standard, none⟩

/-- So many members are within the plan. -/
def fits (a : BillingAccount) (members : Nat) : Bool := a.plan.seatLimit.all (members ≤ ·)

end BillingAccount

end Tenancy
