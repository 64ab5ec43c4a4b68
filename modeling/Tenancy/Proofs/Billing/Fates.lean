import Tenancy.Proofs.Billing.RecordTable
import Tenancy.Proofs.Time

/-!
# What becomes of a record

While several processes use a record table, a record can only be left alone, be deleted as stale, or
be confirmed by the creation it belongs to, and that only as long as it is not stale
(`RecordTable.Fate`).  Under such changes (`RecordTable.Evolves`) three things stay true once they
are:

* `RecordTable.Keeps`: a confirmed record is in the table.
* `RecordTable.IsPending`: a record that others created is unconfirmed or gone.
* `RecordTable.IsStale`: there is no record of an identifier, or an unconfirmed one that is too old.
-/

namespace Tenancy.RecordTable

variable {grace : Nat} {clock now : Time} {own : Int → Prop} {t u : RecordTable} {id : Int}
  {r : PartnerRecord}

def Keeps (t : RecordTable) (r : PartnerRecord) : Prop :=
  t.records.get? r.id = some r ∧ isCleared r.marker = true

/-- The record was created before now, has a marker, and has not been changed since. -/
structure IsPending (t : RecordTable) (clock : Time) (r : PartnerRecord) : Prop where
  inflight : isCleared r.marker = false
  given : r.id < t.nextId
  created_le : r.createdAt ≤ clock
  ordinary : r.createdAt.IsOrdinary
  unchanged : ∀ s, t.records.get? r.id = some s → s = r

/-- If there is a record of the identifier, the grace period after its creation is over and it still
has a marker. -/
structure IsStale (t : RecordTable) (grace : Nat) (clock : Time) (id : Int) : Prop where
  given : id < t.nextId
  stale : ∀ r, t.records.get? id = some r →
    isCleared r.marker = false ∧ r.createdAt.after grace < clock

/-- What one call can do to the record of an identifier; `own` says that the record belongs to the
creation whose call it is. -/
inductive Fate (grace : Nat) (now : Time) (own : Prop) :
    Option PartnerRecord → Option PartnerRecord → Prop
  | same (found : Option PartnerRecord) : Fate grace now own found found
  | deleted (r : PartnerRecord) (hInflight : isCleared r.marker = false)
      (hStale : r.createdAt.after grace < now) : Fate grace now own (some r) none
  | confirmed (r : PartnerRecord) (hOwn : own) (hTimely : now ≤ r.createdAt.after grace) :
      Fate grace now own (some r) (some (RecordPatch.clearMarker.apply r))

structure Evolves (grace : Nat) (now : Time) (own : Int → Prop) (t u : RecordTable) : Prop where
  nextId_le : t.nextId ≤ u.nextId
  fate : ∀ id, id < t.nextId → Fate grace now (own id) (t.records.get? id) (u.records.get? id)
  new : ∀ id r, t.nextId ≤ id → u.records.get? id = some r → r.id = id ∧ id < u.nextId

/-! ## Calls -/

theorem evolves_of_fate (hKeyed : t.IsKeyed) (hNext : u.nextId = t.nextId)
    (hFate : ∀ id, Fate grace now (own id) (t.records.get? id) (u.records.get? id)) :
    t.Evolves grace now own u := by
  refine ⟨Int.le_of_eq hNext.symm, fun id _ => hFate id, fun id r hLe hGet => ?_⟩
  have hNone : t.records.get? id = none := by
    cases hGet : t.records.get? id with
    | none => rfl
    | some s => exact absurd (hKeyed id s hGet).2 (Int.not_lt.2 hLe)
  have hHere := hFate id
  rw [hNone, hGet] at hHere
  cases hHere

theorem Agrees.evolves (hAgrees : t.Agrees u) (hKeyed : t.IsKeyed) : t.Evolves grace now own u :=
  evolves_of_fate hKeyed hAgrees.nextId_eq fun id => by
    rw [hAgrees.records_eq]
    exact .same _

theorem evolves_create (hKeyed : t.IsKeyed) (hId : r.id = t.nextId)
    (hRecords : u.records = t.records.insert t.nextId r) (hNext : u.nextId = t.nextId + 1) :
    t.Evolves grace now own u := by
  refine ⟨by omega, fun id hLt => ?_, fun id s hLe hGet => ?_⟩
  · rw [hRecords, SortedMap.get?_insert_of_ne (by omega)]
    exact .same _
  · rw [hRecords, SortedMap.get?_insert] at hGet
    split at hGet
    · rename_i hEq
      obtain rfl := Option.some.inj hGet
      omega
    · have := (hKeyed id s hGet).2
      omega

theorem isPending_stored {new : NewRecord} (hMarker : isCleared new.marker = false)
    (hNow : now.IsOrdinary) (hRecords : u.records = t.records.insert id (new.stored id now))
    (hNext : u.nextId = id + 1) : u.IsPending now (new.stored id now) where
  inflight := hMarker
  given := hNext ▸ Int.lt_succ id
  created_le := Time.le_refl now
  ordinary := hNow
  unchanged s hGet := by
    change u.records.get? id = some s at hGet
    rw [hRecords, SortedMap.get?_insert_self] at hGet
    exact (Option.some.inj hGet).symm

theorem evolves_delete {ids : List Int} (hKeyed : t.IsKeyed)
    (hStale : ∀ id ∈ ids, t.IsStale grace now id)
    (hRecords : u.records = ids.foldl SortedMap.erase t.records) (hNext : u.nextId = t.nextId) :
    t.Evolves grace now own u := by
  refine evolves_of_fate hKeyed hNext fun id => ?_
  rw [hRecords, get?_erased]
  split
  · rename_i hMem
    cases hGet : t.records.get? id with
    | none => exact .same _
    | some r =>
      obtain ⟨hInflight, hOld⟩ := (hStale id hMem).stale r hGet
      exact .deleted r hInflight hOld
  · exact .same _

theorem evolves_confirm {ids : List Int} (hKeyed : t.IsKeyed) (hOwn : ∀ id ∈ ids, own id)
    (hTimely : ∀ id ∈ ids, ∀ r, t.records.get? id = some r → now ≤ r.createdAt.after grace)
    (hRecords : u.records = ids.foldl (patchOne .clearMarker) t.records)
    (hNext : u.nextId = t.nextId) :
    t.Evolves grace now own u := by
  refine evolves_of_fate hKeyed hNext fun id => ?_
  rw [hRecords, get?_patched]
  split
  · rename_i hMem
    cases hGet : t.records.get? id with
    | none => exact .same _
    | some r => exact .confirmed r (hOwn id hMem) (hTimely id hMem r hGet)
  · exact .same _

/-! ## What stays true -/

theorem Evolves.isKeyed (h : t.Evolves grace now own u) (hKeyed : t.IsKeyed) : u.IsKeyed := by
  intro id r hGet
  by_cases hLt : id < t.nextId
  · refine ⟨?_, Int.lt_of_lt_of_le hLt h.nextId_le⟩
    have hFate := h.fate id hLt
    generalize hBefore : t.records.get? id = before at hFate
    rw [hGet] at hFate
    cases hFate with
    | same => exact (hKeyed id r hBefore).1
    | confirmed s => exact (hKeyed id s hBefore).1
  · exact h.new id r (Int.not_lt.1 hLt) hGet

theorem Keeps.evolves (hKeeps : t.Keeps r) (hKeyed : t.IsKeyed) (h : t.Evolves grace now own u) :
    u.Keeps r := by
  obtain ⟨hGet, hCleared⟩ := hKeeps
  have hFate := h.fate r.id (hKeyed r.id r hGet).2
  generalize hAfter : u.records.get? r.id = found at hFate
  rw [hGet] at hFate
  refine ⟨hAfter.trans ?_, hCleared⟩
  cases hFate with
  | same => rfl
  | deleted _ hInflight => exact absurd (hCleared.symm.trans hInflight) (by decide)
  | confirmed => rw [RecordPatch.clearMarker_of_isCleared hCleared]

theorem IsPending.evolves (hPending : t.IsPending clock r) (h : t.Evolves grace now own u)
    (hClock : clock ≤ now) (hOther : ¬ own r.id) : u.IsPending now r where
  inflight := hPending.inflight
  given := Int.lt_of_lt_of_le hPending.given h.nextId_le
  created_le := Time.le_trans hPending.created_le hClock
  ordinary := hPending.ordinary
  unchanged s hGet := by
    have hFate := h.fate r.id hPending.given
    generalize hBefore : t.records.get? r.id = found at hFate
    rw [hGet] at hFate
    cases hFate with
    | same => exact hPending.unchanged s hBefore
    | confirmed _ hOwn => exact absurd hOwn hOther

/-- A record that is too old cannot be confirmed any more. -/
theorem IsStale.evolves (hStale : t.IsStale grace clock id) (h : t.Evolves grace now own u)
    (hClock : clock ≤ now) : u.IsStale grace now id where
  given := Int.lt_of_lt_of_le hStale.given h.nextId_le
  stale r hGet := by
    have hFate := h.fate id hStale.given
    generalize hBefore : t.records.get? id = found at hFate
    rw [hGet] at hFate
    cases hFate with
    | same =>
      obtain ⟨hInflight, hOld⟩ := hStale.stale r hBefore
      exact ⟨hInflight, Time.lt_of_lt_of_le hOld hClock⟩
    | confirmed s _ hTimely =>
      have hOld := Time.lt_of_lt_of_le (hStale.stale s hBefore).2 hClock
      exact absurd hTimely (Time.not_le_of_lt hOld)

theorem Keeps.not_isPending {s : PartnerRecord} (hKeeps : t.Keeps r)
    (hPending : t.IsPending clock s) : r.id ≠ s.id := by
  intro hId
  have hSame := hPending.unchanged r (hId ▸ hKeeps.1)
  have hInflight := hPending.inflight
  rw [← hSame, hKeeps.2] at hInflight
  cases hInflight

end Tenancy.RecordTable
