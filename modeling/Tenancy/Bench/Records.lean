import Tenancy.Billing.Memory

/-!
# Record systems on a bench

A record system whose searches can be made to fail, and one that holds a fixed list of records.
-/

namespace Tenancy.RecordSystem

variable {m : Type → Type} [Monad m]

/-- The record system `inner` whose searches fail, uncounted, while `failing` says so. -/
def withSearchFault (inner : RecordSystem m) (failing : m Bool) : RecordSystem m where
  create := inner.create
  update := inner.update
  delete := inner.delete
  search filter := do
    if ← ExceptT.lift failing then throw (.unavailable "search failed")
    inner.search filter

/-- The form of a list of identifiers in messages. -/
def idsText (ids : List Int) : String := "[" ++ ", ".intercalate (ids.map toString) ++ "]"

/-- The record system that holds the given records in their order and lets nobody change them. -/
def fixed (records : List PartnerRecord) : RecordSystem m where
  create _ := throw (.rejected "create")
  update ids _ := throw (.rejected ("update " ++ idsText ids))
  delete ids := throw (.rejected ("delete " ++ idsText ids))
  search filter := return records.filter filter.accepts

end Tenancy.RecordSystem
