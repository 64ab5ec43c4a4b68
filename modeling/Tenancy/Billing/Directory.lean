import Tenancy.Billing.System
import Tenancy.Organization.Account
import Tenancy.SortedMap

/-!
# The billing directory

A billing entity is a confirmed company record with a confirmed invoice address.  Since nothing
spans several calls, both records of a new entity are created with one marker, which a single
update clears on both at the end.  Whatever fails before leaves marked records behind; reading
passes over them, and nobody takes them back at once.
-/

namespace Tenancy

structure BillingEntity where
  company : PartnerRecord
  invoice : PartnerRecord
  deriving DecidableEq

namespace BillingEntity

def link (e : BillingEntity) : RecordLink := ⟨e.company.id, e.invoice.id⟩

/-- The organization that is billed. -/
def organization (e : BillingEntity) : String := e.company.reference

end BillingEntity

namespace BillingDirectory

/-- The company record of an account. -/
def companyOf (account : BillingAccount) : NewRecord :=
  .company account.legalName account.organization

/-- The invoice record of an account whose company has been created. -/
def invoiceOf (account : BillingAccount) (company : Int) : NewRecord :=
  .invoice account.legalName account.billingEmail account.organization company

/-- The companies among some records by identifier; of equal identifiers the last counts. -/
def companies (records : List PartnerRecord) : SortedMap Int PartnerRecord :=
  .ofList ((records.filter (·.kind = .company)).map fun r => (r.id, r))

/-- The entities found with one more invoice: the first invoice of a company counts. -/
def pair (companies : SortedMap Int PartnerRecord) (paired : SortedMap Int BillingEntity)
    (invoice : PartnerRecord) : SortedMap Int BillingEntity :=
  match invoice.parentId with
  | none => paired
  | some id =>
    if paired.contains id then paired
    else
      match companies.get? id with
      | some company => paired.insert id ⟨company, invoice⟩
      | none => paired

/-- The entities that confirmed records form, by ascending company. -/
def entities (records : List PartnerRecord) : List BillingEntity :=
  ((records.filter (·.kind = .invoice)).foldl (pair (companies records)) ∅).values

variable {m : Type → Type} [Monad m]

/-- Writes the records of an account under a marker and clears it. -/
def createMarked (system : RecordSystem m) (marker : String) (account : BillingAccount) :
    ExceptT BillingError m RecordLink := do
  let companyId ← system.create ((companyOf account).withMarker marker)
  let invoiceId ← system.create ((invoiceOf account companyId).withMarker marker)
  system.update [companyId, invoiceId] .clearMarker
  return ⟨companyId, invoiceId⟩

/-- Creates the entity of an account under a fresh marker.  After a failure the records that are
left behind are looked up once, for the log. -/
def create (system : RecordSystem m) (marker : String) (account : BillingAccount) :
    ExceptT BillingError m RecordLink := do
  match ← ExceptT.lift (createMarked system marker account).run with
  | .ok link => return link
  | .error e =>
    let _ ← ExceptT.lift (system.search (.tagged marker)).run
    throw e

/-- The first of some records; there is no entity without one. -/
def firstOr (companyId : Int) : List PartnerRecord → Except BillingError PartnerRecord
  | r :: _ => .ok r
  | [] => .error (.entityNotFound companyId)

/-- The search for the company record of a link. -/
def companyFilter (link : RecordLink) : SearchFilter :=
  { SearchFilter.confirmed with kind := some .company, ids := some [link.companyId] }

/-- The search for the invoice record of a link. -/
def invoiceFilter (link : RecordLink) : SearchFilter :=
  { SearchFilter.confirmed with
    kind := some .invoice, parentId := some link.companyId, ids := some [link.invoiceId] }

/-- The entity of a link: both records are there, confirmed, and belong together. -/
def get (system : RecordSystem m) (link : RecordLink) : ExceptT BillingError m BillingEntity := do
  let company ← firstOr link.companyId (← system.search (companyFilter link))
  let invoice ← firstOr link.companyId (← system.search (invoiceFilter link))
  return ⟨company, invoice⟩

/-- All entities, by ascending company. -/
def list (system : RecordSystem m) : ExceptT BillingError m (List BillingEntity) := do
  return entities (← system.search .confirmed)

/-- The form in descriptions. -/
def describe : String := "BillingDirectory \x7b .. \x7d"

end BillingDirectory

end Tenancy
