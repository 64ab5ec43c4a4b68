import Tenancy.Proofs.Billing.RecordTable

/-!
# Reached tables

From the empty table any calls may follow each other, whatever they return, and failures may be
ordered between them.  What one call may do to the records is said once (`TableCall.Effect`).

* `TableCall.run_ended`: what a call answers, and the table after it.
* `TableCall.isOrderly_reached`: in every table that is reached, records are kept under their own
  identifiers, which have been given, and belong to records with smaller ones.
* `TableCall.isAbandoned_applyAll`: a record with a marker keeps one until an update clears it.
-/

namespace Tenancy

namespace RecordTable

/-- Every record is kept under its own identifier, which has been given, and the company to which it
belongs was created before it. -/
structure IsOrderly (t : RecordTable) : Prop where
  keyed : t.IsKeyed
  parent_lt : ∀ id r parent, t.records.get? id = some r → r.parentId = some parent → parent < id

variable {t : RecordTable}

/-- A new record has a name, and belongs to a company that is in the table just if it is an invoice
record. -/
theorem objection_eq_none_iff {new : NewRecord} :
    t.objection new = none ↔ isBlankText new.name = false ∧
      match new.kind with
      | .company => new.parentId = none
      | .invoice => ∃ parent company, new.parentId = some parent ∧
          t.records.get? parent = some company ∧ company.kind = .company := by
  obtain ⟨kind, name, email, reference, parentId, marker⟩ := new
  rw [objection]
  cases isBlankText name with
  | true => simp
  | false =>
    cases kind with
    | company => cases parentId <;> simp
    | invoice =>
      cases parentId with
      | none => simp
      | some parent => cases hGet : t.records.get? parent <;> simp [hGet]

/-- The company of a record that may be stored is in the table. -/
theorem parent_of_objection {new : NewRecord} {parent : Int} (hNone : t.objection new = none)
    (hParent : new.parentId = some parent) : ∃ company, t.records.get? parent = some company := by
  have hFits := (objection_eq_none_iff.1 hNone).2
  cases hKind : new.kind with
  | company =>
    rw [hKind] at hFits
    cases hFits.symm.trans hParent
  | invoice =>
    rw [hKind] at hFits
    obtain ⟨other, company, hOther, hGet, -⟩ := hFits
    obtain rfl := Option.some.inj (hOther.symm.trans hParent)
    exact ⟨company, hGet⟩

end RecordTable

/-! ## Calls -/

/-- What may be asked of a record table, the failures that may be ordered included. -/
inductive TableCall where
  | create (now : Time) (r : NewRecord)
  | insertAt (time : Time) (r : NewRecord)
  | update (ids : List Int) (patch : RecordPatch)
  | delete (ids : List Int)
  | search (filter : SearchFilter)
  | failCreatesAfter (n : Nat)
  | failUpdates
  | failDeletes
  | clearFailures

namespace TableCall

open RecordTable

/-- The table after a call, whatever its result is. -/
def apply (t : RecordTable) : TableCall → RecordTable
  | .create now r => (runOn (RecordTable.create now r) t).2
  | .insertAt time r => (runOn (RecordTable.insertAt time r) t).2
  | .update ids patch => (runOn (RecordTable.update ids patch) t).2
  | .delete ids => (runOn (RecordTable.delete ids) t).2
  | .search filter => (runOn (RecordTable.search filter) t).2
  | .failCreatesAfter n => t.failCreatesAfter n
  | .failUpdates => t.failUpdates
  | .failDeletes => t.failDeletes
  | .clearFailures => t.clearFailures

def applyAll (calls : List TableCall) (t : RecordTable) : RecordTable := calls.foldl apply t

def reached (calls : List TableCall) : RecordTable := applyAll calls {}

def new? : TableCall → Option NewRecord
  | .create _ r | .insertAt _ r => some r
  | _ => none

/-- What a call may do: nothing, or one record is new, or a batch has been patched or removed. -/
inductive Effect (t : RecordTable) : TableCall → RecordTable → Prop
  | nothing (call : TableCall) {u : RecordTable} (hAgrees : t.Agrees u) : Effect t call u
  | created (call : TableCall) (time : Time) (r : NewRecord) {u : RecordTable}
      (hNew : call.new? = some r) (hAccepted : t.objection r = none)
      (hRecords : u.records = t.records.insert t.nextId (r.stored t.nextId time))
      (hNext : u.nextId = t.nextId + 1) : Effect t call u
  | patched (ids : List Int) (patch : RecordPatch) {u : RecordTable}
      (hRecords : u.records = ids.foldl (patchOne patch) t.records) (hNext : u.nextId = t.nextId) :
      Effect t (.update ids patch) u
  | removed (ids : List Int) {u : RecordTable}
      (hRecords : u.records = ids.foldl SortedMap.erase t.records) (hNext : u.nextId = t.nextId) :
      Effect t (.delete ids) u

/-! ## Answers -/

inductive Answer where
  /-- The identifier of a new record. -/
  | created (id : Int)
  | found (records : List PartnerRecord)
  | done

def run (t : RecordTable) : TableCall → Except BillingError Answer × RecordTable
  | .create now r => runOn (.created <$> RecordTable.create now r) t
  | .insertAt time r => runOn (.created <$> RecordTable.insertAt time r) t
  | .update ids patch => runOn ((fun _ => .done) <$> RecordTable.update ids patch) t
  | .delete ids => runOn ((fun _ => .done) <$> RecordTable.delete ids) t
  | .search filter => runOn (.found <$> RecordTable.search filter) t
  | .failCreatesAfter n => (.ok .done, t.failCreatesAfter n)
  | .failUpdates => (.ok .done, t.failUpdates)
  | .failDeletes => (.ok .done, t.failDeletes)
  | .clearFailures => (.ok .done, t.clearFailures)

theorem apply_eq_run (t : RecordTable) (call : TableCall) : call.apply t = (call.run t).2 := by
  cases call <;> simp only [apply, run, runOn_map]

def Creates (time : Time) (new : NewRecord) (call : TableCall) : Prop :=
  call = .create time new ∨ call = .insertAt time new

/-- The call orders failures, or takes them back. -/
def IsOrder : TableCall → Prop
  | .failCreatesAfter _ | .failUpdates | .failDeletes | .clearFailures => True
  | _ => False

/-- What a call answers, and what it has done by then. -/
inductive Ended (t : RecordTable) : TableCall → Except BillingError Answer × RecordTable → Prop
  | failed (call : TableCall) (e : BillingError) {u : RecordTable} (hAgrees : t.Agrees u) :
      Ended t call (.error e, u)
  | created {call : TableCall} {time : Time} {new : NewRecord} {u : RecordTable}
      (hCreates : call.Creates time new) (hAccepted : t.objection new = none)
      (hRecords : u.records = t.records.insert t.nextId (new.stored t.nextId time))
      (hNext : u.nextId = t.nextId + 1) : Ended t call (.ok (.created t.nextId), u)
  | updated (ids : List Int) (patch : RecordPatch) {u : RecordTable}
      (hStored : ∀ id ∈ ids, ∃ r, t.records.get? id = some r)
      (hRecords : u.records = ids.foldl (patchOne patch) t.records) (hNext : u.nextId = t.nextId) :
      Ended t (.update ids patch) (.ok .done, u)
  | deleted (ids : List Int) {u : RecordTable}
      (hStored : ∀ id ∈ ids, ∃ r, t.records.get? id = some r)
      (hRecords : u.records = ids.foldl SortedMap.erase t.records) (hNext : u.nextId = t.nextId) :
      Ended t (.delete ids) (.ok .done, u)
  | searched (filter : SearchFilter) {u : RecordTable} (hAgrees : t.Agrees u) :
      Ended t (.search filter) (.ok (.found (t.matching filter)), u)
  | ordered {call : TableCall} {u : RecordTable} (hOrder : call.IsOrder) (hAgrees : t.Agrees u) :
      Ended t call (.ok .done, u)

theorem run_ended (t : RecordTable) (call : TableCall) : Ended t call (call.run t) := by
  cases call with
  | create now r =>
    rw [run, runOn_map, runOn_create]
    cases hRefusal : t.refusal? r with
    | some e => exact .failed _ e ⟨rfl, rfl⟩
    | none => exact .created (.inl rfl) (refusal?_eq_none_iff.1 hRefusal).2 rfl rfl
  | insertAt time r =>
    rw [run, runOn_map, runOn_insertAt]
    cases hObjection : t.objection r with
    | some e => exact .failed _ e ⟨rfl, rfl⟩
    | none => exact .created (.inr rfl) hObjection rfl rfl
  | update ids patch =>
    have hOutcome := update_outcome ids patch t
    rw [run, runOn_map]
    generalize runOn (RecordTable.update ids patch) t = answered at hOutcome
    cases hOutcome with
    | failed hAgrees => exact .failed _ _ hAgrees
    | done hDone => exact .updated ids patch hDone.1 hDone.2.1 hDone.2.2
  | delete ids =>
    have hOutcome := delete_outcome ids t
    rw [run, runOn_map]
    generalize runOn (RecordTable.delete ids) t = answered at hOutcome
    cases hOutcome with
    | failed hAgrees => exact .failed _ _ hAgrees
    | done hDone => exact .deleted ids hDone.1 hDone.2.1 hDone.2.2
  | search filter => exact .searched filter ⟨rfl, rfl⟩
  | failCreatesAfter n => exact .ordered trivial ⟨rfl, rfl⟩
  | failUpdates => exact .ordered trivial ⟨rfl, rfl⟩
  | failDeletes => exact .ordered trivial ⟨rfl, rfl⟩
  | clearFailures => exact .ordered trivial ⟨rfl, rfl⟩

theorem new?_of_creates {call : TableCall} {time : Time} {new : NewRecord}
    (hCreates : call.Creates time new) : call.new? = some new := by
  rcases hCreates with rfl | rfl <;> rfl

theorem Ended.effect {t : RecordTable} {call : TableCall}
    {answered : Except BillingError Answer × RecordTable} (h : Ended t call answered) :
    Effect t call answered.2 := by
  cases h with
  | failed _ _ hAgrees => exact .nothing _ hAgrees
  | created hCreates hAccepted hRecords hNext =>
    exact .created _ _ _ (new?_of_creates hCreates) hAccepted hRecords hNext
  | updated ids patch _ hRecords hNext => exact .patched ids patch hRecords hNext
  | deleted ids _ hRecords hNext => exact .removed ids hRecords hNext
  | searched _ hAgrees => exact .nothing _ hAgrees
  | ordered _ hAgrees => exact .nothing _ hAgrees

theorem apply_effect (t : RecordTable) (call : TableCall) : Effect t call (call.apply t) :=
  apply_eq_run t call ▸ (run_ended t call).effect

variable {t u : RecordTable} {call : TableCall} {calls : List TableCall}

/-! ## What calls keep -/

/-- Where the record of an identifier comes from after a call. -/
theorem Effect.get?_cases (h : Effect t call u) {id : Int} {r : PartnerRecord}
    (hGet : u.records.get? id = some r) :
    t.records.get? id = some r ∨
      (∃ time new, t.objection new = none ∧ id = t.nextId ∧ u.nextId = t.nextId + 1 ∧
        r = new.stored id time) ∨
      ∃ ids patch s, call = .update ids patch ∧ id ∈ ids ∧ t.records.get? id = some s ∧
        r = patch.apply s := by
  cases h with
  | nothing _ hAgrees => exact .inl (hAgrees.records_eq ▸ hGet)
  | created _ time new _ hAccepted hRecords hNext =>
    rw [hRecords, SortedMap.get?_insert] at hGet
    split at hGet
    · rename_i hId
      exact .inr (.inl ⟨time, new, hAccepted, hId, hNext, hId ▸ (Option.some.inj hGet).symm⟩)
    · exact .inl hGet
  | patched ids patch hRecords =>
    rw [hRecords, get?_patched] at hGet
    split at hGet
    · rename_i hMem
      obtain ⟨s, hBefore, rfl⟩ := Option.map_eq_some_iff.1 hGet
      exact .inr (.inr ⟨ids, patch, s, rfl, hMem, hBefore, rfl⟩)
    · exact .inl hGet
  | removed ids hRecords =>
    rw [hRecords, get?_erased] at hGet
    split at hGet
    · cases hGet
    · exact .inl hGet

theorem Effect.nextId_le (h : Effect t call u) : t.nextId ≤ u.nextId := by
  cases h with
  | nothing _ hAgrees => exact Int.le_of_eq hAgrees.nextId_eq.symm
  | created _ _ _ _ _ _ hNext => omega
  | patched _ _ _ hNext => omega
  | removed _ _ hNext => omega

theorem Effect.isOrderly (h : Effect t call u) (hOrderly : t.IsOrderly) : u.IsOrderly where
  keyed id r hGet := by
    have hLe := h.nextId_le
    rcases h.get?_cases hGet with hBefore | ⟨time, new, -, rfl, hNext, rfl⟩ | hPatched
    · have hKeyed := hOrderly.keyed id r hBefore
      omega
    · exact ⟨rfl, by omega⟩
    · obtain ⟨ids, patch, s, -, -, hBefore, rfl⟩ := hPatched
      obtain ⟨hId, hGiven⟩ := hOrderly.keyed id s hBefore
      exact ⟨hId, by omega⟩
  parent_lt id r parent hGet hParent := by
    rcases h.get?_cases hGet with hBefore | ⟨time, new, hAccepted, rfl, -, rfl⟩ | hPatched
    · exact hOrderly.parent_lt id r parent hBefore hParent
    · obtain ⟨company, hCompany⟩ := parent_of_objection hAccepted hParent
      exact (hOrderly.keyed parent company hCompany).2
    · obtain ⟨ids, patch, s, -, -, hBefore, rfl⟩ := hPatched
      exact hOrderly.parent_lt id s parent hBefore hParent

theorem isOrderly_applyAll (hOrderly : t.IsOrderly) : (applyAll calls t).IsOrderly := by
  induction calls generalizing t with
  | nil => exact hOrderly
  | cons call calls ih => exact ih ((apply_effect t call).isOrderly hOrderly)

theorem isOrderly_reached (calls : List TableCall) : (reached calls).IsOrderly :=
  isOrderly_applyAll ⟨fun _ _ hGet => (Option.some_ne_none _ hGet.symm).elim,
    fun _ _ _ hGet => (Option.some_ne_none _ hGet.symm).elim⟩

/-! ## Records that keep a marker -/

def Confirms (id : Int) : TableCall → Prop
  | .update ids patch => id ∈ ids ∧ patch.marker.any isCleared = true
  | _ => False

end TableCall

/-- If there is still a record of the identifier, it has a marker and was created at this time. -/
structure RecordTable.IsAbandoned (t : RecordTable) (id : Int) (time : Time) : Prop where
  given : id < t.nextId
  inflight : ∀ r, t.records.get? id = some r → r.isInflight = true ∧ r.createdAt = time

namespace TableCall

theorem Effect.isAbandoned (h : Effect t call u) {id : Int} {time : Time}
    (hAbandoned : t.IsAbandoned id time) (hNot : ¬ call.Confirms id) : u.IsAbandoned id time where
  given := Int.lt_of_lt_of_le hAbandoned.given h.nextId_le
  inflight r hGet := by
    rcases h.get?_cases hGet with hBefore | ⟨time', new, -, rfl, -, rfl⟩ | hPatched
    · exact hAbandoned.inflight r hBefore
    · exact absurd hAbandoned.given (Int.lt_irrefl _)
    · obtain ⟨ids, patch, s, rfl, hMem, hBefore, rfl⟩ := hPatched
      obtain ⟨hInflight, hTime⟩ := hAbandoned.inflight s hBefore
      refine ⟨?_, hTime⟩
      rw [PartnerRecord.isInflight, RecordPatch.apply]
      cases hMarker : patch.marker with
      | none => exact hInflight
      | some marker => simpa [Confirms, hMem, hMarker] using hNot

theorem isAbandoned_applyAll {id : Int} {time : Time} (hAbandoned : t.IsAbandoned id time)
    (hNot : ∀ call ∈ calls, ¬ call.Confirms id) : (applyAll calls t).IsAbandoned id time := by
  induction calls generalizing t with
  | nil => exact hAbandoned
  | cons call calls ih =>
    exact ih ((apply_effect t call).isAbandoned hAbandoned (hNot call List.mem_cons_self))
      fun later hMem => hNot later (List.mem_cons_of_mem _ hMem)

end TableCall

end Tenancy
