import Tenancy.Proofs.Billing.TableHistory

/-!
# The names of stored records

A record is stored under a name that is not blank, or not at all.  An update sets any name, so that
records can lose what their insertion demanded (`update_stores_blank_name`).

* `TableCall.naming?`: the name that a call gives to a record.
* `TableCall.lastNaming_of_reached`: a record has the name that it was given last.
* `name_blank_iff_updated`: if that name is blank, an update has given it.
-/

namespace Tenancy

namespace TableCall

open RecordTable

variable {t : RecordTable} {call : TableCall} {calls : List TableCall} {id : Int} {name : String}
  {r s : PartnerRecord}

/-- The name that a call gives to the record of an identifier, if it gives it one. -/
def naming? (t : RecordTable) (id : Int) (call : TableCall) : Option String :=
  match (call.run t).1, call with
  | .ok (.created given), _ => if given = id then call.new?.map (·.name) else none
  | .ok .done, .update ids patch => if id ∈ ids then patch.name else none
  | _, _ => none

/-- A stored record has the name that the call has given to it, or the one that it had before. -/
theorem naming?_cases (hGet : (call.apply t).records.get? id = some s) :
    call.naming? t id = some s.name ∨
      call.naming? t id = none ∧ ∃ r, t.records.get? id = some r ∧ r.name = s.name := by
  have hEnded := run_ended t call
  rw [apply_eq_run] at hGet
  unfold naming?
  generalize call.run t = answered at hEnded hGet
  cases hEnded with
  | failed _ _ hAgrees => exact .inr ⟨rfl, s, hAgrees.records_eq ▸ hGet, rfl⟩
  | created hCreates _ hRecords =>
    simp only [new?_of_creates hCreates]
    rw [hRecords, SortedMap.get?_insert] at hGet
    by_cases hId : id = t.nextId
    · rw [if_pos hId] at hGet
      obtain rfl := Option.some.inj hGet
      exact .inl (if_pos hId.symm)
    · rw [if_neg hId] at hGet
      exact .inr ⟨if_neg fun hSame => hId hSame.symm, s, hGet, rfl⟩
  | updated ids patch _ hRecords =>
    rw [hRecords, get?_patched] at hGet
    by_cases hMem : id ∈ ids
    · rw [if_pos hMem] at hGet
      obtain ⟨r, hBefore, rfl⟩ := Option.map_eq_some_iff.1 hGet
      cases hName : patch.name with
      | none =>
        exact .inr ⟨(if_pos hMem).trans hName, r, hBefore, by simp [RecordPatch.apply, hName]⟩
      | some name => exact .inl (by simp [hMem, RecordPatch.apply, hName])
    · rw [if_neg hMem] at hGet
      exact .inr ⟨if_neg hMem, s, hGet, rfl⟩
  | deleted ids _ hRecords =>
    rw [hRecords, get?_erased] at hGet
    split at hGet
    · cases hGet
    · exact .inr ⟨rfl, s, hGet, rfl⟩
  | searched _ hAgrees => exact .inr ⟨rfl, s, hAgrees.records_eq ▸ hGet, rfl⟩
  | ordered hOrder hAgrees =>
    refine .inr ⟨?_, s, hAgrees.records_eq ▸ hGet, rfl⟩
    cases call <;> first | rfl | exact hOrder.elim

/-- An update gives the name of its patch. -/
theorem naming?_update {ids : List Int} {patch : RecordPatch}
    (hNaming : (TableCall.update ids patch).naming? t id = some name) :
    id ∈ ids ∧ patch.name = some name := by
  have hEnded := run_ended t (.update ids patch)
  unfold naming? at hNaming
  generalize TableCall.run t (.update ids patch) = answered at hEnded hNaming
  cases hEnded with
  | failed => cases hNaming
  | created hCreates => cases new?_of_creates hCreates
  | updated => simpa using hNaming
  | ordered hOrder => exact hOrder.elim

/-- A call that gives a blank name is an update: creations object to such a name. -/
theorem naming?_blank (hNaming : call.naming? t id = some name) (hBlank : isBlankText name = true) :
    ∃ ids patch, call = .update ids patch := by
  have hEnded := run_ended t call
  unfold naming? at hNaming
  generalize call.run t = answered at hEnded hNaming
  cases hEnded with
  | failed | deleted | searched => cases hNaming
  | created hCreates hAccepted =>
    simp only [new?_of_creates hCreates] at hNaming
    split at hNaming
    · obtain rfl := Option.some.inj hNaming
      cases hBlank.symm.trans (objection_eq_none_iff.1 hAccepted).1
    · cases hNaming
  | updated ids patch => exact ⟨ids, patch, rfl⟩
  | ordered hOrder => cases call <;> first | cases hNaming | exact hOrder.elim

/-- The call of a run that was the last to give a name to the record of an identifier, and the calls
before and after it. -/
structure LastNaming (calls : List TableCall) (id : Int) (name : String)
    (before : List TableCall) (call : TableCall) (after : List TableCall) : Prop where
  split : calls = before ++ call :: after
  naming : call.naming? (reached before) id = some name
  later : ∀ middle other rest, after = middle ++ other :: rest →
    other.naming? (reached (before ++ call :: middle)) id = none

theorem LastNaming.concat {before after : List TableCall} {other : TableCall}
    (h : LastNaming calls id name before call after)
    (hOther : other.naming? (reached calls) id = none) :
    LastNaming (calls ++ [other]) id name before call (after ++ [other]) where
  split := by rw [h.split, List.append_assoc, List.cons_append]
  naming := h.naming
  later middle next rest hSplit := by
    -- the call in question is the one that has been added, or it was among those before
    rcases List.eq_nil_or_concat rest with rfl | ⟨front, last, rfl⟩
    · obtain ⟨rfl, hSame⟩ := List.append_inj' hSplit rfl
      obtain rfl := List.singleton_inj.1 hSame
      exact h.split ▸ hOther
    · rw [List.concat_eq_append, ← List.cons_append, ← List.append_assoc] at hSplit
      exact h.later middle next front (List.append_inj' hSplit rfl).1

/-- A stored record has the name that it was given last. -/
theorem lastNaming_of_reached (hGet : (reached calls).records.get? id = some s) :
    ∃ before call after, LastNaming calls id s.name before call after := by
  induction calls using List.reverseRecOn generalizing s with
  | nil => cases hGet
  | append_singleton calls call ih =>
    rw [reached_concat] at hGet
    rcases naming?_cases hGet with hNaming | ⟨hNone, r, hBefore, hName⟩
    · refine ⟨calls, call, [], rfl, hNaming, fun middle other rest hSplit => ?_⟩
      cases middle <;> cases hSplit
    · obtain ⟨before, first, after, hLast⟩ := ih hBefore
      exact ⟨before, first, after ++ [call], hName ▸ hLast.concat hNone⟩

end TableCall

/-- **A stored name is blank just if an update gave it**: the call that last gave the record a name
is an update with a blank one. -/
theorem name_blank_iff_updated (calls : List TableCall) {id : Int} {r : PartnerRecord}
    (hGet : (TableCall.reached calls).records.get? id = some r) :
    ∃ before call after, TableCall.LastNaming calls id r.name before call after ∧
      (isBlankText r.name = true ↔
        ∃ ids patch, call = .update ids patch ∧ id ∈ ids ∧
          patch.name.any isBlankText = true) := by
  obtain ⟨before, call, after, hLast⟩ := TableCall.lastNaming_of_reached hGet
  refine ⟨before, call, after, hLast, fun hBlank => ?_, ?_⟩
  · obtain ⟨ids, patch, rfl⟩ := TableCall.naming?_blank hLast.naming hBlank
    obtain ⟨hMem, hName⟩ := TableCall.naming?_update hLast.naming
    exact ⟨ids, patch, rfl, hMem, by rwa [hName]⟩
  · rintro ⟨ids, patch, rfl, -, hBlank⟩
    rwa [(TableCall.naming?_update hLast.naming).2] at hBlank

def TableCall.blanking : List TableCall :=
  [.create ⟨0, 0⟩ (.company "Acme" "acme"), .update [1] { name := some " " }]

def PartnerRecord.blanked : PartnerRecord :=
  ⟨1, .company, " ", none, "acme", none, clearedMarker, ⟨0, 0⟩⟩

theorem name_blank_iff_updated_blanking :
    (TableCall.reached TableCall.blanking).records.get? 1 = some .blanked ∧
      ∃ before call after, TableCall.LastNaming TableCall.blanking 1 " " before call after ∧
        (isBlankText " " = true ↔
          ∃ ids patch, call = .update ids patch ∧ 1 ∈ ids ∧ patch.name.any isBlankText = true) := by
  have hGet : (TableCall.reached TableCall.blanking).records.get? 1 = some .blanked := by decide
  exact ⟨hGet, name_blank_iff_updated TableCall.blanking hGet⟩

/-- A name that no new record may have is stored all the same. -/
theorem update_stores_blank_name :
    (∃ r, (TableCall.reached TableCall.blanking).records.get? 1 = some r ∧
      isBlankText r.name = true) ∧
      ∀ t : RecordTable, t.objection (.company " " "acme") = some (.rejected "name is required") :=
  ⟨⟨.blanked, by decide, by decide⟩, fun _ => rfl⟩

end Tenancy
