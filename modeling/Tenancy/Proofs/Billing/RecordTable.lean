import Tenancy.Billing.Memory
import Tenancy.Proofs.Operation
import Tenancy.Proofs.SortedMap

/-!
# Calls of a record table

What the four calls do to the records and to the identifier that is given next.  A call that fails
changes neither; a batch is carried out for all its records or for none.

* `RecordTable.create_outcome`, `RecordTable.update_outcome`, `RecordTable.delete_outcome`: how a
  call can end.
* `RecordTable.get?_patched`, `RecordTable.get?_erased`: the records after a batch.
* `RecordTable.head?_matching`: a search for one identifier finds its record or nothing.
-/

namespace Tenancy

/-- Markers that are drawn have characters. -/
theorem isCleared_of_length {marker : String} (hLength : marker.length = markerLength) :
    isCleared marker = false := by
  cases hCleared : isCleared marker with
  | false => rfl
  | true =>
    obtain rfl := String.isEmpty_iff.1 hCleared
    cases hLength

namespace RecordPatch

theorem apply_apply (p : RecordPatch) (r : PartnerRecord) : p.apply (p.apply r) = p.apply r := by
  obtain ⟨name, email, marker⟩ := p
  cases name <;> cases email <;> cases marker <;> rfl

theorem clearMarker_of_isCleared {r : PartnerRecord} (hCleared : isCleared r.marker = true) :
    clearMarker.apply r = r := by
  obtain ⟨id, kind, name, email, reference, parentId, marker, createdAt⟩ := r
  obtain rfl : marker = "" := String.isEmpty_iff.1 hCleared
  rfl

@[simp]
theorem id_clearMarker (r : PartnerRecord) : (clearMarker.apply r).id = r.id := rfl

end RecordPatch

namespace RecordTable

variable {t t' : RecordTable} {id : Int} {ids : List Int}

/-- Every record is kept under its own identifier, which has been given. -/
def IsKeyed (t : RecordTable) : Prop :=
  ∀ id r, t.records.get? id = some r → r.id = id ∧ id < t.nextId

/-- The records and the next identifier are those of another table. -/
structure Agrees (t t' : RecordTable) : Prop where
  records_eq : t'.records = t.records
  nextId_eq : t'.nextId = t.nextId

theorem Agrees.isKeyed (hAgrees : t.Agrees t') (hKeyed : t.IsKeyed) : t'.IsKeyed := by
  rw [IsKeyed, hAgrees.records_eq, hAgrees.nextId_eq]
  exact hKeyed

/-! ## Batches -/

theorem get?_patchOne (patch : RecordPatch) (records : SortedMap Int PartnerRecord)
    (key other : Int) :
    (patchOne patch records key).get? other =
      if other = key then (records.get? other).map patch.apply else records.get? other := by
  by_cases hEq : other = key
  · subst hEq
    rw [if_pos rfl, patchOne]
    cases hGet : records.get? other with
    | none => exact hGet
    | some r => exact SortedMap.get?_insert_self
  · rw [if_neg hEq, patchOne]
    cases records.get? key with
    | none => rfl
    | some r => exact SortedMap.get?_insert_of_ne hEq

/-- A record that is named several times is patched once. -/
theorem get?_patched (patch : RecordPatch) (ids : List Int) (records : SortedMap Int PartnerRecord)
    (key : Int) :
    (ids.foldl (patchOne patch) records).get? key =
      if key ∈ ids then (records.get? key).map patch.apply else records.get? key := by
  induction ids generalizing records with
  | nil => simp
  | cons id ids ih =>
    rw [List.foldl_cons, ih, get?_patchOne]
    by_cases hHead : key = id
    · have hTwice : patch.apply ∘ patch.apply = patch.apply := funext patch.apply_apply
      simp [hHead, hTwice]
    · simp [hHead]

theorem foldl_patchOne (patch : RecordPatch) (ids : List Int)
    (records : SortedMap Int PartnerRecord) :
    ids.foldl (patchOne patch) records =
      records.mapValues fun id r => if id ∈ ids then patch.apply r else r := by
  refine SortedMap.ext_get? fun id => ?_
  rw [get?_patched, SortedMap.get?_mapValues]
  split
  · rfl
  · exact Option.map_id'.symm

theorem get?_erased (ids : List Int) (records : SortedMap Int PartnerRecord) (key : Int) :
    (ids.foldl SortedMap.erase records).get? key =
      if key ∈ ids then none else records.get? key := by
  induction ids generalizing records with
  | nil => simp
  | cons id ids ih =>
    rw [List.foldl_cons, ih, SortedMap.get?_erase]
    by_cases hHead : key = id
    · simp [hHead]
    · simp [hHead]

theorem values_patched (hKeyed : t.IsKeyed) (patch : RecordPatch) (ids : List Int) :
    (ids.foldl (patchOne patch) t.records).values =
      t.records.values.map fun r => if r.id ∈ ids then patch.apply r else r := by
  rw [foldl_patchOne]
  simp only [SortedMap.values, SortedMap.mapValues, List.map_map]
  refine List.map_congr_left fun entry hMem => ?_
  obtain ⟨hId, -⟩ := hKeyed entry.1 entry.2 (SortedMap.get?_eq_some_iff.2 hMem)
  simp only [Function.comp, hId]

/-! ## The calls -/

/-- The table after a creation has been asked for, which uses up one of those that are left. -/
def admitted (t : RecordTable) : RecordTable :=
  { t with
    calls.create := t.calls.create + 1
    failures.createsLeft := t.failures.createsLeft.map (· - 1) }

def added (t : RecordTable) (time : Time) (r : NewRecord) : RecordTable :=
  { t with
    records := t.records.insert t.nextId (r.stored t.nextId time)
    nextId := t.nextId + 1 }

def refusal? (t : RecordTable) (r : NewRecord) : Option BillingError :=
  if t.failures.createsLeft = some 0 then some (.unavailable "create failed") else t.objection r

theorem refusal?_eq_none_iff {r : NewRecord} :
    t.refusal? r = none ↔ t.failures.createsLeft ≠ some 0 ∧ t.objection r = none := by
  rw [refusal?]
  split
  · rename_i hFailing
    simp [hFailing]
  · rename_i hFailing
    simp [hFailing]

/-- The error of a batch if some of its records are missing. -/
def missing? (t : RecordTable) (ids : List Int) : Option BillingError :=
  (ids.find? fun id => !t.records.contains id).map .recordNotFound

theorem missing?_eq_none_iff :
    t.missing? ids = none ↔ ∀ id ∈ ids, ∃ r, t.records.get? id = some r := by
  rw [missing?, Option.map_eq_none_iff, List.find?_eq_none]
  refine forall₂_congr fun id _ => ?_
  rw [← SortedMap.contains_iff]
  simp

theorem runOn_insertAt (time : Time) (r : NewRecord) (t : RecordTable) :
    runOn (insertAt time r) t =
      match t.objection r with
      | some e => (.error e, t)
      | none => (.ok t.nextId, t.added time r) := by
  simp only [insertAt, runOn_bind, runOn_get]
  cases t.objection r <;> rfl

theorem runOn_admitCreate (t : RecordTable) :
    runOn admitCreate t =
      (if t.failures.createsLeft = some 0 then .error (.unavailable "create failed") else .ok (),
        t.admitted) := by
  simp only [admitCreate, admitted, runOn_bind, runOn_modify, runOn_get]
  obtain ⟨records, nextId, ⟨createsLeft, updates, deletes⟩, calls⟩ := t
  rcases createsLeft with _ | _ | left
  · rw [if_neg nofun]
    rfl
  · rw [if_pos rfl]
    rfl
  · rw [if_neg nofun]
    rfl

theorem runOn_create (now : Time) (r : NewRecord) (t : RecordTable) :
    runOn (create now r) t =
      match t.refusal? r with
      | some e => (.error e, t.admitted)
      | none => (.ok t.nextId, t.admitted.added now r) := by
  rw [create, runOn_bind, runOn_admitCreate, refusal?]
  by_cases hFailing : t.failures.createsLeft = some 0
  · rw [if_pos hFailing, if_pos hFailing]
  · rw [if_neg hFailing, if_neg hFailing]
    exact runOn_insertAt now r t.admitted

theorem runOn_ensureExist (ids : List Int) (t : RecordTable) :
    runOn (ensureExist ids) t =
      match t.missing? ids with
      | some e => (.error e, t)
      | none => (.ok (), t) := by
  simp only [ensureExist, missing?, runOn_bind, runOn_get]
  cases ids.find? fun id => !t.records.contains id <;> rfl

/-- A batch that has been counted: calls of its kind fail, or it is carried out as a whole. -/
theorem runOn_batch (failing : Bool) (reason : String) (ids : List Int)
    (change : RecordTable → RecordTable) (t : RecordTable) :
    runOn (do
        if failing then throw (.unavailable reason)
        ensureExist ids
        modify change) t =
      match if failing then some (.unavailable reason) else t.missing? ids with
      | some e => (.error e, t)
      | none => (.ok (), change t) := by
  cases failing with
  | true => rfl
  | false =>
    change runOn (do ensureExist ids; modify change) t = match t.missing? ids with
      | some e => (.error e, t)
      | none => (.ok (), change t)
    rw [runOn_bind, runOn_ensureExist]
    cases t.missing? ids <;> rfl

theorem runOn_update (ids : List Int) (patch : RecordPatch) (t : RecordTable) :
    runOn (update ids patch) t =
      let counted := { t with calls.update := t.calls.update + 1 }
      match if t.failures.updates then some (.unavailable "update failed") else t.missing? ids with
      | some e => (.error e, counted)
      | none => (.ok (), { counted with records := ids.foldl (patchOne patch) t.records }) :=
  runOn_batch t.failures.updates "update failed" ids
    (fun t => { t with records := ids.foldl (patchOne patch) t.records })
    { t with calls.update := t.calls.update + 1 }

theorem runOn_delete (ids : List Int) (t : RecordTable) :
    runOn (delete ids) t =
      let counted := { t with calls.delete := t.calls.delete + 1 }
      match if t.failures.deletes then some (.unavailable "delete failed") else t.missing? ids with
      | some e => (.error e, counted)
      | none => (.ok (), { counted with records := ids.foldl SortedMap.erase t.records }) :=
  runOn_batch t.failures.deletes "delete failed" ids
    (fun t => { t with records := ids.foldl SortedMap.erase t.records })
    { t with calls.delete := t.calls.delete + 1 }

/-! ## Outcomes -/

/-- A call fails and changes nothing, or it has a result and a table that belong together. -/
inductive Outcome {α : Type} (t : RecordTable) (Q : α → RecordTable → Prop) :
    Except BillingError α × RecordTable → Prop
  | failed {e : BillingError} {u : RecordTable} (hAgrees : t.Agrees u) : Outcome t Q (.error e, u)
  | done {a : α} {u : RecordTable} (hDone : Q a u) : Outcome t Q (.ok a, u)

theorem create_outcome (now : Time) (r : NewRecord) (t : RecordTable) :
    t.Outcome (fun id u => id = t.nextId ∧
      u.records = t.records.insert id (r.stored id now) ∧ u.nextId = id + 1)
      (runOn (create now r) t) := by
  rw [runOn_create]
  cases t.refusal? r with
  | some e => exact .failed ⟨rfl, rfl⟩
  | none => exact .done ⟨rfl, rfl, rfl⟩

theorem update_outcome (ids : List Int) (patch : RecordPatch) (t : RecordTable) :
    t.Outcome (fun _ u => (∀ id ∈ ids, ∃ r, t.records.get? id = some r) ∧
      u.records = ids.foldl (patchOne patch) t.records ∧ u.nextId = t.nextId)
      (runOn (update ids patch) t) := by
  rw [runOn_update]
  cases t.failures.updates with
  | true => exact .failed ⟨rfl, rfl⟩
  | false =>
    cases hMissing : t.missing? ids with
    | some e => simpa [hMissing] using .failed ⟨rfl, rfl⟩
    | none => simpa [hMissing] using .done ⟨missing?_eq_none_iff.1 hMissing, rfl, rfl⟩

theorem delete_outcome (ids : List Int) (t : RecordTable) :
    t.Outcome (fun _ u => (∀ id ∈ ids, ∃ r, t.records.get? id = some r) ∧
      u.records = ids.foldl SortedMap.erase t.records ∧ u.nextId = t.nextId)
      (runOn (delete ids) t) := by
  rw [runOn_delete]
  cases t.failures.deletes with
  | true => exact .failed ⟨rfl, rfl⟩
  | false =>
    cases hMissing : t.missing? ids with
    | some e => simpa [hMissing] using .failed ⟨rfl, rfl⟩
    | none => simpa [hMissing] using .done ⟨missing?_eq_none_iff.1 hMissing, rfl, rfl⟩

/-! ## Searches -/

def matching (t : RecordTable) (filter : SearchFilter) : List PartnerRecord :=
  t.records.values.filter filter.accepts

@[simp]
theorem matching_calls (calls : CallCounts) (filter : SearchFilter) :
    matching { t with calls := calls } filter = t.matching filter := rfl

theorem runOn_search (filter : SearchFilter) (t : RecordTable) :
    runOn (search filter) t =
      (.ok (t.matching filter), { t with calls.search := t.calls.search + 1 }) := rfl

theorem mem_values_iff (hKeyed : t.IsKeyed) {r : PartnerRecord} :
    r ∈ t.records.values ↔ t.records.get? r.id = some r :=
  SortedMap.mem_values_iff_get? fun id s hGet => (hKeyed id s hGet).1

theorem mem_matching (hKeyed : t.IsKeyed) {filter : SearchFilter} {r : PartnerRecord} :
    r ∈ t.matching filter ↔ t.records.get? r.id = some r ∧ filter.accepts r = true := by
  rw [matching, List.mem_filter, mem_values_iff hKeyed]

theorem ascending_values (hKeyed : t.IsKeyed) : t.records.values.Pairwise (·.id < ·.id) := by
  refine List.pairwise_map.2 (t.records.sorted.imp_of_mem fun {a b} ha hb hBefore => ?_)
  rw [(hKeyed _ _ (SortedMap.get?_eq_some_iff.2 ha)).1,
    (hKeyed _ _ (SortedMap.get?_eq_some_iff.2 hb)).1]
  exact of_decide_eq_true hBefore

theorem ascending_matching (hKeyed : t.IsKeyed) (filter : SearchFilter) :
    (t.matching filter).Pairwise (·.id < ·.id) :=
  (ascending_values hKeyed).filter _

/-- There is at most one record for a search that gives one identifier. -/
theorem head?_matching (hKeyed : t.IsKeyed) {filter : SearchFilter} {r : PartnerRecord}
    (hIds : filter.ids = some [id]) :
    (t.matching filter).head? = some r ↔
      r.id = id ∧ t.records.get? id = some r ∧ filter.accepts r = true := by
  have hId : ∀ s ∈ t.matching filter, s.id = id := fun s hMem => by
    have hAccepts := ((mem_matching hKeyed).1 hMem).2
    simp only [SearchFilter.accepts, hIds, Bool.and_eq_true] at hAccepts
    simpa using hAccepts.1.1.1
  constructor
  · intro hHead
    have hMem := List.mem_of_head? hHead
    have hFound := (mem_matching hKeyed).1 hMem
    exact ⟨hId r hMem, hId r hMem ▸ hFound.1, hFound.2⟩
  · rintro ⟨rfl, hGet, hAccepts⟩
    have hMem : r ∈ t.matching filter := (mem_matching hKeyed).2 ⟨hGet, hAccepts⟩
    cases hList : t.matching filter with
    | nil => exact absurd (hList ▸ hMem) List.not_mem_nil
    | cons s rest =>
      have hFirst : s ∈ t.matching filter := hList ▸ List.mem_cons_self
      have hSame := ((mem_matching hKeyed).1 hFirst).1
      rw [hId s hFirst, hGet] at hSame
      rw [List.head?_cons, hSame]

end RecordTable

end Tenancy
