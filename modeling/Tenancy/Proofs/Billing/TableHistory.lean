import Mathlib.Data.List.Induction
import Tenancy.Proofs.Billing.TableRun

/-!
# What a record table keeps

Whatever is called and whatever fails, a record table stays what its calls made of it
(`record_table_well_kept`).

* `TableCall.mem_given_iff`, `TableCall.ascending_given`: identifiers are given in ascending order
  from one on, none of them twice and none of them left out.
* `TableCall.version_of_applyAll`: a record that is stored under an identifier is all that was ever
  stored under it, but for what updates set.
* `TableCall.inserted_of_reached`: every record was stored by one call of the run, which found
  nothing to object to.
* `TableCall.answersCalls`: what each call does; a batch is carried out for all its records or,
  if it fails, for none.
-/

namespace Tenancy

/-! ## Versions of a record -/

/-- The record is the other one, but for what an update can set. -/
structure PartnerRecord.IsVersionOf (s r : PartnerRecord) : Prop where
  id_eq : s.id = r.id
  kind_eq : s.kind = r.kind
  reference_eq : s.reference = r.reference
  parentId_eq : s.parentId = r.parentId
  createdAt_eq : s.createdAt = r.createdAt

theorem PartnerRecord.IsVersionOf.refl (r : PartnerRecord) : r.IsVersionOf r :=
  ⟨rfl, rfl, rfl, rfl, rfl⟩

theorem PartnerRecord.IsVersionOf.trans {s r q : PartnerRecord} (h : s.IsVersionOf r)
    (h' : r.IsVersionOf q) : s.IsVersionOf q where
  id_eq := h.id_eq.trans h'.id_eq
  kind_eq := h.kind_eq.trans h'.kind_eq
  reference_eq := h.reference_eq.trans h'.reference_eq
  parentId_eq := h.parentId_eq.trans h'.parentId_eq
  createdAt_eq := h.createdAt_eq.trans h'.createdAt_eq

/-- What a patch makes of a record: the fields that it gives are set, all others stay. -/
structure RecordPatch.Sets (p : RecordPatch) (r s : PartnerRecord) : Prop
    extends s.IsVersionOf r where
  name_eq : s.name = p.name.getD r.name
  email_eq : s.email = p.email.or r.email
  marker_eq : s.marker = p.marker.getD r.marker

theorem RecordPatch.sets_apply (p : RecordPatch) (r : PartnerRecord) : p.Sets r (p.apply r) where
  toIsVersionOf := ⟨rfl, rfl, rfl, rfl, rfl⟩
  name_eq := rfl
  email_eq := by
    rw [apply]
    cases p.email <;> rfl
  marker_eq := rfl

/-! ## What single calls do -/

namespace RecordTable

/-- The record may be stored: it has a name, and belongs to a company of the table just if it is an
invoice record. -/
def Admits (t : RecordTable) (new : NewRecord) : Prop :=
  isBlankText new.name = false ∧
    match new.kind with
    | .company => new.parentId = none
    | .invoice => ∃ parent company, new.parentId = some parent ∧
        t.records.get? parent = some company ∧ company.kind = .company

theorem admits_iff {t : RecordTable} {new : NewRecord} :
    t.objection new = none ↔ t.Admits new := objection_eq_none_iff

/-- What each call does to the records and the next identifier, and when it succeeds. -/
structure AnswersCalls (t : RecordTable) : Prop where
  failed : ∀ (call : TableCall) e u, call.run t = (.error e, u) →
    u.records = t.records ∧ u.nextId = t.nextId
  created : ∀ (call : TableCall) time new a u, call.Creates time new → call.run t = (.ok a, u) →
    a = .created t.nextId ∧ u.nextId = t.nextId + 1 ∧
      ∀ id, u.records.get? id =
        if id = t.nextId then some (new.stored t.nextId time) else t.records.get? id
  create_succeeds : ∀ time new, (∃ a u, (TableCall.create time new).run t = (.ok a, u)) ↔
    t.failures.createsLeft ≠ some 0 ∧ t.Admits new
  insertAt_succeeds : ∀ time new, (∃ a u, (TableCall.insertAt time new).run t = (.ok a, u)) ↔
    t.Admits new
  updated : ∀ ids patch a u, (TableCall.update ids patch).run t = (.ok a, u) →
    u.nextId = t.nextId ∧
      (∀ id ∈ ids, ∃ r s, t.records.get? id = some r ∧ u.records.get? id = some s ∧
        patch.Sets r s) ∧
      ∀ id, id ∉ ids → u.records.get? id = t.records.get? id
  update_succeeds : ∀ ids patch, (∃ a u, (TableCall.update ids patch).run t = (.ok a, u)) ↔
    t.failures.updates = false ∧ ∀ id ∈ ids, ∃ r, t.records.get? id = some r
  deleted : ∀ ids a u, (TableCall.delete ids).run t = (.ok a, u) →
    u.nextId = t.nextId ∧
      (∀ id ∈ ids, (∃ r, t.records.get? id = some r) ∧ u.records.get? id = none) ∧
      ∀ id, id ∉ ids → u.records.get? id = t.records.get? id
  delete_succeeds : ∀ ids, (∃ a u, (TableCall.delete ids).run t = (.ok a, u)) ↔
    t.failures.deletes = false ∧ ∀ id ∈ ids, ∃ r, t.records.get? id = some r
  searched : ∀ filter, ∃ found u, (TableCall.search filter).run t = (.ok (.found found), u) ∧
    u.records = t.records ∧ u.nextId = t.nextId ∧ found.Pairwise (·.id < ·.id) ∧
      ∀ r, r ∈ found ↔ t.records.get? r.id = some r ∧ filter.accepts r = true

end RecordTable

namespace TableCall

open RecordTable

variable {t u : RecordTable} {call : TableCall} {calls later : List TableCall} {id : Int}
  {ids : List Int} {patch : RecordPatch} {r s : PartnerRecord} {time : Time} {new : NewRecord}
  {a : Answer} {e : BillingError}

theorem Creates.unique {time' : Time} {new' : NewRecord} (h : call.Creates time new)
    (h' : call.Creates time' new') : time = time' ∧ new = new' := by
  rcases h with rfl | rfl
  · rcases h' with hSame | hSame <;> cases hSame
    exact ⟨rfl, rfl⟩
  · rcases h' with hSame | hSame <;> cases hSame
    exact ⟨rfl, rfl⟩

theorem ended_of_run {answered : Except BillingError Answer × RecordTable}
    (hRun : call.run t = answered) : Ended t call answered := hRun ▸ run_ended t call

theorem agrees_of_failed (hRun : call.run t = (.error e, u)) : t.Agrees u := by
  cases ended_of_run hRun with
  | failed _ _ hAgrees => exact hAgrees

/-- A record is created only if nothing is objected to it. -/
theorem created_of_run (hCreates : call.Creates time new) (hRun : call.run t = (.ok a, u)) :
    a = .created t.nextId ∧ t.objection new = none ∧
      u.records = t.records.insert t.nextId (new.stored t.nextId time) ∧
      u.nextId = t.nextId + 1 := by
  cases ended_of_run hRun with
  | created hSame hAccepted hRecords hNext =>
    obtain ⟨rfl, rfl⟩ := hSame.unique hCreates
    exact ⟨rfl, hAccepted, hRecords, hNext⟩
  | ordered hOrder => rcases hCreates with rfl | rfl <;> exact hOrder.elim
  | updated | deleted | searched => cases new?_of_creates hCreates

theorem updated_of_run (hRun : (TableCall.update ids patch).run t = (.ok a, u)) :
    (∀ id ∈ ids, ∃ r, t.records.get? id = some r) ∧
      u.records = ids.foldl (patchOne patch) t.records ∧ u.nextId = t.nextId := by
  cases ended_of_run hRun with
  | created hCreates => cases new?_of_creates hCreates
  | updated _ _ hStored hRecords hNext => exact ⟨hStored, hRecords, hNext⟩
  | ordered hOrder => exact hOrder.elim

theorem deleted_of_run (hRun : (TableCall.delete ids).run t = (.ok a, u)) :
    (∀ id ∈ ids, ∃ r, t.records.get? id = some r) ∧
      u.records = ids.foldl SortedMap.erase t.records ∧ u.nextId = t.nextId := by
  cases ended_of_run hRun with
  | created hCreates => cases new?_of_creates hCreates
  | deleted _ hStored hRecords hNext => exact ⟨hStored, hRecords, hNext⟩
  | ordered hOrder => exact hOrder.elim

theorem create_succeeds_iff : (∃ a u, (TableCall.create time new).run t = (.ok a, u)) ↔
    t.failures.createsLeft ≠ some 0 ∧ t.Admits new := by
  rw [← admits_iff, ← refusal?_eq_none_iff, run, runOn_map, runOn_create]
  cases t.refusal? new <;> simp

theorem insertAt_succeeds_iff : (∃ a u, (TableCall.insertAt time new).run t = (.ok a, u)) ↔
    t.Admits new := by
  rw [← admits_iff, run, runOn_map, runOn_insertAt]
  cases t.objection new <;> simp

theorem update_succeeds_iff : (∃ a u, (TableCall.update ids patch).run t = (.ok a, u)) ↔
    t.failures.updates = false ∧ ∀ id ∈ ids, ∃ r, t.records.get? id = some r := by
  rw [← missing?_eq_none_iff, run, runOn_map, runOn_update]
  cases t.failures.updates <;> cases t.missing? ids <;> simp

theorem delete_succeeds_iff : (∃ a u, (TableCall.delete ids).run t = (.ok a, u)) ↔
    t.failures.deletes = false ∧ ∀ id ∈ ids, ∃ r, t.records.get? id = some r := by
  rw [← missing?_eq_none_iff, run, runOn_map, runOn_delete]
  cases t.failures.deletes <;> cases t.missing? ids <;> simp

theorem answersCalls (hKeyed : t.IsKeyed) : t.AnswersCalls where
  failed call e u hRun := ⟨(agrees_of_failed hRun).records_eq, (agrees_of_failed hRun).nextId_eq⟩
  created call time new a u hCreates hRun := by
    obtain ⟨rfl, -, hRecords, hNext⟩ := created_of_run hCreates hRun
    refine ⟨rfl, hNext, fun id => ?_⟩
    rw [hRecords, SortedMap.get?_insert]
  create_succeeds _ _ := create_succeeds_iff
  insertAt_succeeds _ _ := insertAt_succeeds_iff
  updated ids patch a u hRun := by
    obtain ⟨hStored, hRecords, hNext⟩ := updated_of_run hRun
    refine ⟨hNext, fun id hMem => ?_, fun id hNot => ?_⟩
    · obtain ⟨r, hGet⟩ := hStored id hMem
      refine ⟨r, patch.apply r, hGet, ?_, patch.sets_apply r⟩
      rw [hRecords, get?_patched, if_pos hMem, hGet, Option.map_some]
    · rw [hRecords, get?_patched, if_neg hNot]
  update_succeeds _ _ := update_succeeds_iff
  deleted ids a u hRun := by
    obtain ⟨hStored, hRecords, hNext⟩ := deleted_of_run hRun
    refine ⟨hNext, fun id hMem => ⟨hStored id hMem, ?_⟩, fun id hNot => ?_⟩
    · rw [hRecords, get?_erased, if_pos hMem]
    · rw [hRecords, get?_erased, if_neg hNot]
  delete_succeeds _ := delete_succeeds_iff
  searched filter :=
    ⟨t.matching filter, _, rfl, rfl, rfl, ascending_matching hKeyed filter,
      fun _ => mem_matching hKeyed⟩

/-! ## Identifiers -/

def given? (t : RecordTable) (call : TableCall) : Option Int :=
  match (call.run t).1 with
  | .ok (.created id) => some id
  | _ => none

def given : List TableCall → RecordTable → List Int
  | [], _ => []
  | call :: calls, t => (call.given? t).toList ++ given calls (call.apply t)

/-- A call gives the next identifier, or none. -/
theorem given?_cases (t : RecordTable) (call : TableCall) :
    (call.given? t = some t.nextId ∧ (call.apply t).nextId = t.nextId + 1) ∨
      (call.given? t = none ∧ (call.apply t).nextId = t.nextId) := by
  have hEnded := run_ended t call
  rw [apply_eq_run, given?]
  generalize call.run t = answered at hEnded
  cases hEnded with
  | failed _ _ hAgrees => exact .inr ⟨rfl, hAgrees.nextId_eq⟩
  | created _ _ _ hNext => exact .inl ⟨rfl, hNext⟩
  | updated _ _ _ _ hNext => exact .inr ⟨rfl, hNext⟩
  | deleted _ _ _ hNext => exact .inr ⟨rfl, hNext⟩
  | searched _ hAgrees => exact .inr ⟨rfl, hAgrees.nextId_eq⟩
  | ordered _ hAgrees => exact .inr ⟨rfl, hAgrees.nextId_eq⟩

theorem nextId_le_applyAll (calls : List TableCall) (t : RecordTable) :
    t.nextId ≤ (applyAll calls t).nextId := by
  induction calls generalizing t with
  | nil => exact Int.le_refl _
  | cons call calls ih => exact Int.le_trans (apply_effect t call).nextId_le (ih _)

/-- The identifiers that are given are those from the next one on. -/
theorem mem_given_iff : id ∈ given calls t ↔ t.nextId ≤ id ∧ id < (applyAll calls t).nextId := by
  induction calls generalizing t with
  | nil =>
    change id ∈ [] ↔ t.nextId ≤ id ∧ id < t.nextId
    rw [List.mem_nil_iff, false_iff]
    omega
  | cons call calls ih =>
    have hLe := nextId_le_applyAll calls (call.apply t)
    change id ∈ (call.given? t).toList ++ given calls (call.apply t) ↔
      t.nextId ≤ id ∧ id < (applyAll calls (call.apply t)).nextId
    rw [List.mem_append, ih]
    rcases given?_cases t call with ⟨hGiven, hNext⟩ | ⟨hGiven, hNext⟩
    · rw [hGiven, Option.toList_some, List.mem_singleton]
      omega
    · rw [hGiven, Option.toList_none, List.mem_nil_iff, false_or, hNext]

theorem ascending_given (calls : List TableCall) (t : RecordTable) :
    (given calls t).Pairwise (· < ·) := by
  induction calls generalizing t with
  | nil => exact .nil
  | cons call calls ih =>
    change ((call.given? t).toList ++ given calls (call.apply t)).Pairwise (· < ·)
    rcases given?_cases t call with ⟨hGiven, hNext⟩ | ⟨hGiven, -⟩
    · rw [hGiven]
      refine List.pairwise_cons.2 ⟨fun id hMem => ?_, ih _⟩
      have hLater := (mem_given_iff.1 hMem).1
      omega
    · rw [hGiven]
      exact ih _

/-! ## Where records come from -/

/-- The record of an identifier after a call is a version of the one before it, unless the call has
just stored it. -/
theorem get?_apply_cases (hGet : (call.apply t).records.get? id = some s) :
    (∃ r, t.records.get? id = some r ∧ s.IsVersionOf r) ∨
      ∃ time new, call.Creates time new ∧ t.objection new = none ∧ call.given? t = some id ∧
        id = t.nextId ∧ s = new.stored id time := by
  have hEnded := run_ended t call
  rw [apply_eq_run] at hGet
  rw [given?]
  generalize call.run t = answered at hEnded hGet
  cases hEnded with
  | failed _ _ hAgrees => exact .inl ⟨s, hAgrees.records_eq ▸ hGet, .refl s⟩
  | created hCreates hAccepted hRecords hNext =>
    rw [hRecords, SortedMap.get?_insert] at hGet
    split at hGet
    · rename_i hId
      subst hId
      exact .inr ⟨_, _, hCreates, hAccepted, rfl, rfl, (Option.some.inj hGet).symm⟩
    · exact .inl ⟨s, hGet, .refl s⟩
  | updated ids patch _ hRecords =>
    rw [hRecords, get?_patched] at hGet
    split at hGet
    · obtain ⟨r, hBefore, rfl⟩ := Option.map_eq_some_iff.1 hGet
      exact .inl ⟨r, hBefore, (patch.sets_apply r).toIsVersionOf⟩
    · exact .inl ⟨s, hGet, .refl s⟩
  | deleted ids _ hRecords =>
    rw [hRecords, get?_erased] at hGet
    split at hGet
    · cases hGet
    · exact .inl ⟨s, hGet, .refl s⟩
  | searched _ hAgrees => exact .inl ⟨s, hAgrees.records_eq ▸ hGet, .refl s⟩
  | ordered _ hAgrees => exact .inl ⟨s, hAgrees.records_eq ▸ hGet, .refl s⟩

/-- What is stored under an identifier that had been given before is a version of what was stored
under it then. -/
theorem version_of_applyAll (hGiven : id < t.nextId)
    (hGet : (applyAll calls t).records.get? id = some s) :
    ∃ r, t.records.get? id = some r ∧ s.IsVersionOf r := by
  induction calls generalizing t with
  | nil => exact ⟨s, hGet, .refl s⟩
  | cons call calls ih =>
    have hLe := (apply_effect t call).nextId_le
    obtain ⟨r, hAfter, hVersion⟩ := ih (by omega) hGet
    rcases get?_apply_cases hAfter with ⟨q, hBefore, hEarlier⟩ | ⟨_, _, -, -, -, rfl, -⟩
    · exact ⟨q, hBefore, hVersion.trans hEarlier⟩
    · -- the identifier cannot be the one that the call has just given
      exact absurd hGiven (Int.lt_irrefl _)

theorem reached_append (calls later : List TableCall) :
    reached (calls ++ later) = applyAll later (reached calls) := List.foldl_append

theorem reached_concat (calls : List TableCall) (call : TableCall) :
    reached (calls ++ [call]) = call.apply (reached calls) := reached_append calls [call]

/-- A call of the run has stored a new record under an identifier; `met` is the table that it
met. -/
def Inserted (calls : List TableCall) (met : RecordTable) (id : Int) (time : Time)
    (new : NewRecord) : Prop :=
  ∃ before call after, calls = before ++ call :: after ∧ met = reached before ∧
    call.Creates time new ∧ call.given? met = some id

theorem Inserted.concat {met : RecordTable} (h : Inserted calls met id time new)
    (call : TableCall) : Inserted (calls ++ [call]) met id time new := by
  obtain ⟨before, first, after, rfl, hMet⟩ := h
  exact ⟨before, first, after ++ [call], by simp, hMet⟩

/-- Every record has been stored by a call, which met a table that admits it. -/
theorem inserted_of_reached (hGet : (reached calls).records.get? id = some s) :
    ∃ met time new, Inserted calls met id time new ∧ met.Admits new ∧
      s.IsVersionOf (new.stored id time) := by
  -- from the end of the run: the last call has stored the record, or it was there before that call
  induction calls using List.reverseRecOn generalizing s with
  | nil => cases hGet
  | append_singleton calls call ih =>
    rw [reached_concat] at hGet
    rcases get?_apply_cases hGet with
      ⟨r, hBefore, hVersion⟩ | ⟨time, new, hCreates, hAccepted, hGiven, -, rfl⟩
    · obtain ⟨met, time, new, hInserted, hAdmits, hEarlier⟩ := ih hBefore
      exact ⟨met, time, new, hInserted.concat call, hAdmits, hVersion.trans hEarlier⟩
    · exact ⟨reached calls, time, new, ⟨calls, call, [], rfl, rfl, hCreates, hGiven⟩,
        admits_iff.1 hAccepted, .refl _⟩

theorem Inserted.one_le {met : RecordTable} (h : Inserted calls met id time new) : 1 ≤ id := by
  obtain ⟨before, call, after, -, rfl, -, hGiven⟩ := h
  have hLe : 1 ≤ (reached before).nextId := nextId_le_applyAll before {}
  rcases given?_cases (reached before) call with ⟨hNext, -⟩ | ⟨hNone, -⟩
  · obtain rfl := Option.some.inj (hGiven.symm.trans hNext)
    exact hLe
  · cases hGiven.symm.trans hNone

/-- What holds of the records that a run has left, and of all that become of them. -/
structure KeepsRecords (calls : List TableCall) : Prop where
  ascending : (given calls {}).Pairwise (· < ·)
  given_iff : ∀ id, id ∈ given calls {} ↔ 1 ≤ id ∧ id < (reached calls).nextId
  stored : ∀ id r, (reached calls).records.get? id = some r →
    r.id = id ∧ 1 ≤ id ∧ id < (reached calls).nextId
  /-- The parent of an invoice record was a company record of the table that the insertion met. -/
  inserted : ∀ id r, (reached calls).records.get? id = some r →
    ∃ met time new, Inserted calls met id time new ∧ r.IsVersionOf (new.stored id time) ∧
      match r.kind with
      | .company => r.parentId = none
      | .invoice => ∃ parent company, r.parentId = some parent ∧ parent < id ∧
          met.records.get? parent = some company ∧ company.kind = .company
  unchanging : ∀ later id r s, (reached calls).records.get? id = some r →
    (reached (calls ++ later)).records.get? id = some s → s.IsVersionOf r
  gone : ∀ later id, id < (reached calls).nextId → (reached calls).records.get? id = none →
    (reached (calls ++ later)).records.get? id = none

theorem keepsRecords (calls : List TableCall) : KeepsRecords calls where
  ascending := ascending_given calls {}
  given_iff _ := mem_given_iff
  stored id r hGet := by
    obtain ⟨hId, hGiven⟩ := (isOrderly_reached calls).keyed id r hGet
    obtain ⟨met, time, new, hInserted, -⟩ := inserted_of_reached hGet
    exact ⟨hId, hInserted.one_le, hGiven⟩
  inserted id r hGet := by
    obtain ⟨met, time, new, hInserted, ⟨-, hFits⟩, hVersion⟩ := inserted_of_reached hGet
    refine ⟨met, time, new, hInserted, hVersion, ?_⟩
    have hKind : r.kind = new.kind := hVersion.kind_eq
    have hParent : r.parentId = new.parentId := hVersion.parentId_eq
    rw [← hKind, ← hParent] at hFits
    cases hRecord : r.kind with
    | company => rwa [hRecord] at hFits
    | invoice =>
      rw [hRecord] at hFits
      obtain ⟨parent, company, hSome, hCompany⟩ := hFits
      exact ⟨parent, company, hSome, (isOrderly_reached calls).parent_lt id r parent hGet hSome,
        hCompany⟩
  unchanging later id r s hGet hLater := by
    rw [reached_append] at hLater
    have hGiven := ((isOrderly_reached calls).keyed id r hGet).2
    obtain ⟨q, hBefore, hVersion⟩ := version_of_applyAll hGiven hLater
    rw [hGet] at hBefore
    cases hBefore
    exact hVersion
  gone later id hGiven hNone := by
    rw [reached_append]
    cases hLater : (applyAll later (reached calls)).records.get? id with
    | none => rfl
    | some s =>
      obtain ⟨q, hBefore, -⟩ := version_of_applyAll hGiven hLater
      cases hNone.symm.trans hBefore

end TableCall

/-- **A record table keeps its records well formed and its batches whole**, whatever has been called
and whatever has failed. -/
theorem record_table_well_kept (calls : List TableCall) :
    TableCall.KeepsRecords calls ∧ (TableCall.reached calls).AnswersCalls :=
  ⟨TableCall.keepsRecords calls, TableCall.answersCalls (TableCall.isOrderly_reached calls).keyed⟩

/-- An identifier is not given again after its record has been deleted. -/
example : TableCall.given [.insertAt ⟨0, 0⟩ (.company "Acme" "acme"), .delete [1],
    .insertAt ⟨0, 0⟩ (.company "Globex" "globex")] {} = [1, 2] := by
  decide

end Tenancy
