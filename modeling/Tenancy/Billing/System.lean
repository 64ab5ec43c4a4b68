import Tenancy.Billing.Record
import Tenancy.Store.Error

/-!
# Record systems

What the keeper of partner records offers: single records are created, and batches of them updated,
deleted or searched for.  Nothing spans several calls.
-/

namespace Tenancy

inductive BillingError where
  | recordNotFound (id : Int)
  /-- There is no complete and confirmed pair of records for the company. -/
  | entityNotFound (id : Int)
  | rejected (reason : String)
  | unavailable (reason : String)
  deriving DecidableEq

namespace BillingError

def message : BillingError → String
  | .recordNotFound id => "Partner record " ++ toString id ++ " not found"
  | .entityNotFound id => "Billing entity " ++ toString id ++ " not found"
  | .rejected reason => "Record rejected: " ++ reason
  | .unavailable reason => "Record system unavailable: " ++ reason

def isNotFound : BillingError → Bool
  | .recordNotFound _ | .entityNotFound _ => true
  | _ => false

def status : BillingError → Nat
  | .recordNotFound _ | .entityNotFound _ => 404
  | .rejected _ => 422
  | .unavailable _ => 503

def code : BillingError → String
  | .recordNotFound _ => "RECORD_NOT_FOUND"
  | .entityNotFound _ => "NOT_FOUND"
  | .rejected _ => "RECORD_REJECTED"
  | .unavailable _ => "SERVICE_UNAVAILABLE"

def toStoreError : BillingError → StoreError
  | .entityNotFound id => .notFound .billingAccount (toString id)
  | .rejected reason => .validationFailed reason
  | e => .internal e.message

end BillingError

structure RecordSystem (m : Type → Type) where
  /-- Creates a record and gives its identifier. -/
  create : NewRecord → ExceptT BillingError m Int
  update : (ids : List Int) → RecordPatch → ExceptT BillingError m Unit
  delete : (ids : List Int) → ExceptT BillingError m Unit
  search : SearchFilter → ExceptT BillingError m (List PartnerRecord)

end Tenancy
