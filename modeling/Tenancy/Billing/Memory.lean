import Tenancy.Billing.System
import Tenancy.Cell
import Tenancy.SortedMap
import Tenancy.Text.Blank

/-!
# Record systems in memory

Records by identifier; identifiers are given in ascending order and never again.  Batches are all or
nothing: if one record is missing, no record changes.  Calls are counted and can be made to fail.
-/

namespace Tenancy

/-- The failures that have been ordered. -/
structure RecordFailures where
  /-- The number of creations before all further ones fail. -/
  createsLeft : Option Nat := none
  updates : Bool := false
  deletes : Bool := false

/-- The number of calls of each kind. -/
structure CallCounts where
  create : Nat := 0
  update : Nat := 0
  delete : Nat := 0
  search : Nat := 0

structure RecordTable where
  records : SortedMap Int PartnerRecord := ∅
  /-- The identifier of the next record. -/
  nextId : Int := 1
  failures : RecordFailures := {}
  calls : CallCounts := {}

namespace RecordTable

abbrev Op (α : Type) := ExceptT BillingError (StateM RecordTable) α

/-- What is wrong with a new record, if anything. -/
def objection (t : RecordTable) (r : NewRecord) : Option BillingError :=
  if isBlankText r.name then some (.rejected "name is required")
  else
    match r.kind, r.parentId with
    | .company, some _ => some (.rejected "company records cannot have a parent")
    | .company, none => none
    | .invoice, none => some (.rejected "invoice records need a company")
    | .invoice, some parent =>
      if (t.records.get? parent).any (·.kind = .company) then none
      else some (.recordNotFound parent)

/-- Stores a new record created at the given time. -/
def insertAt (time : Time) (r : NewRecord) : Op Int := do
  let t ← get
  match t.objection r with
  | some e => throw e
  | none =>
    let records := t.records.insert t.nextId (r.stored t.nextId time)
    set { t with records := records, nextId := t.nextId + 1 }
    return t.nextId

/-- Counts a creation and, if creations have been made to fail, lets it fail or counts down. -/
def admitCreate : Op Unit := do
  modify fun t => { t with calls.create := t.calls.create + 1 }
  match (← get).failures.createsLeft with
  | none => return
  | some 0 => throw (.unavailable "create failed")
  | some (left + 1) => modify fun t => { t with failures.createsLeft := some left }

def create (time : Time) (r : NewRecord) : Op Int := do
  admitCreate
  insertAt time r

/-- Fails unless there are records of all the identifiers. -/
def ensureExist (ids : List Int) : Op Unit := do
  let t ← get
  match ids.find? fun id => !t.records.contains id with
  | some missing => throw (.recordNotFound missing)
  | none => return

/-- The records with a patch applied to that of the given identifier. -/
def patchOne (patch : RecordPatch) (records : SortedMap Int PartnerRecord) (id : Int) :
    SortedMap Int PartnerRecord :=
  match records.get? id with
  | some r => records.insert id (patch.apply r)
  | none => records

def update (ids : List Int) (patch : RecordPatch) : Op Unit := do
  modify fun t => { t with calls.update := t.calls.update + 1 }
  if (← get).failures.updates then throw (.unavailable "update failed")
  ensureExist ids
  modify fun t => { t with records := ids.foldl (patchOne patch) t.records }

def delete (ids : List Int) : Op Unit := do
  modify fun t => { t with calls.delete := t.calls.delete + 1 }
  if (← get).failures.deletes then throw (.unavailable "delete failed")
  ensureExist ids
  modify fun t => { t with records := ids.foldl SortedMap.erase t.records }

/-- The records that a filter accepts, by ascending identifier. -/
def search (filter : SearchFilter) : Op (List PartnerRecord) := do
  modify fun t => { t with calls.search := t.calls.search + 1 }
  return (← get).records.values.filter filter.accepts

def failCreatesAfter (n : Nat) (t : RecordTable) : RecordTable :=
  { t with failures.createsLeft := some n }

def failUpdates (t : RecordTable) : RecordTable := { t with failures.updates := true }

def failDeletes (t : RecordTable) : RecordTable := { t with failures.deletes := true }

def clearFailures (t : RecordTable) : RecordTable := { t with failures := {} }

/-- The table of a cell as a record system; `clock` tells the time of creations. -/
def system {m : Type → Type} [Monad m] (cell : Cell m RecordTable) (clock : m Time) :
    RecordSystem m where
  create r := do
    let time ← ExceptT.lift clock
    ExceptT.mk (cell.access (create time r))
  update ids patch := cell.access (update ids patch)
  delete ids := cell.access (delete ids)
  search filter := cell.access (search filter)

end RecordTable

end Tenancy
