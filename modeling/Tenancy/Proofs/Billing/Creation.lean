import Tenancy.Proofs.Billing.Sweep

/-!
# What a creation leaves

A creation makes up to three calls, each of which may be refused.  With nobody between them it adds
a company record and an invoice record to the table, both confirmed, or some of the two with its
marker, which nobody reads.

* `RecordTable.Gains`: new records come after all others.
* `BillingDirectory.Ended`: how a creation ends, and when it succeeds.
* `creation_all_or_nothing`: what others see of it.
-/

namespace Tenancy

namespace RecordTable

variable {t u v : RecordTable} {new : List PartnerRecord} {id : Int} {r : PartnerRecord}

/-- A clock that shows a time for every state of the table. -/
def clock (read : RecordTable → Time) : StateM RecordTable Time := do
  return read (← get)

theorem run_clock (read : RecordTable → Time) (t : RecordTable) :
    (clock read).run t = (read t, t) := rfl

theorem runOn_system_create (read : RecordTable → Time) (r : NewRecord) (t : RecordTable) :
    runOn ((RecordTable.system Cell.whole (clock read)).create r) t =
      runOn (RecordTable.create (read t) r) t := by
  simp only [RecordTable.system, runOn_bind, runOn_lift, run_clock]
  exact runOn_whole _ _

/-! ## Tables that grow -/

/-- The table has got new records, which come after all others. -/
structure Gains (t : RecordTable) (new : List PartnerRecord) (u : RecordTable) : Prop where
  values_eq : u.records.values = t.records.values ++ new
  nextId_eq : u.nextId = t.nextId + new.length
  fresh : ∀ r ∈ new, t.nextId ≤ r.id
  orderly : u.IsOrderly

theorem gains_nil (hOrderly : t.IsOrderly) (hAgrees : t.Agrees u) : t.Gains [] u where
  values_eq := by rw [hAgrees.records_eq, List.append_nil]
  nextId_eq := by simp [hAgrees.nextId_eq]
  fresh := by simp
  orderly := (TableCall.Effect.nothing .failUpdates hAgrees).isOrderly hOrderly

theorem Gains.agrees (h : t.Gains new u) (hAgrees : u.Agrees v) : t.Gains new v where
  values_eq := by rw [hAgrees.records_eq, h.values_eq]
  nextId_eq := by rw [hAgrees.nextId_eq, h.nextId_eq]
  fresh := h.fresh
  orderly := (gains_nil h.orderly hAgrees).orderly

theorem Gains.added {time : Time} {r : NewRecord} (h : t.Gains new u)
    (hNone : u.objection r = none) :
    t.Gains (new ++ [r.stored u.nextId time]) (u.added time r) where
  values_eq := by
    rw [RecordTable.added, SortedMap.values_insert_of_last, h.values_eq, List.append_assoc]
    exact fun id s hGet => decide_eq_true (h.orderly.keyed id s hGet).2
  nextId_eq := by
    have hNext := h.nextId_eq
    rw [List.length_append, List.length_singleton]
    change u.nextId + 1 = _
    omega
  fresh s hMem := by
    rcases List.mem_append.1 hMem with hOld | hNew
    · exact h.fresh s hOld
    · obtain rfl := List.mem_singleton.1 hNew
      have hNext := h.nextId_eq
      change t.nextId ≤ u.nextId
      omega
  orderly := by
    have hEffect : TableCall.Effect u (.create time r) (u.added time r) :=
      .created _ time r rfl hNone rfl rfl
    exact hEffect.isOrderly h.orderly

theorem Gains.patched (h : t.Gains new u) (hKeyed : t.IsKeyed) (patch : RecordPatch)
    (calls : CallCounts) : t.Gains (new.map patch.apply)
      { u with records := (new.map (·.id)).foldl (patchOne patch) u.records, calls := calls } where
  values_eq := by
    rw [values_patched h.orderly.keyed, h.values_eq, List.map_append]
    congr 1
    · refine (List.map_congr_left fun r hMem => if_neg fun hNew => ?_).trans (List.map_id _)
      obtain ⟨id, hGet⟩ := SortedMap.mem_values.1 hMem
      obtain ⟨hId, hGiven⟩ := hKeyed id r hGet
      obtain ⟨s, hs, hSame⟩ := List.mem_map.1 hNew
      have hFresh := h.fresh s hs
      omega
    · exact List.map_congr_left fun r hMem => if_pos (List.mem_map_of_mem hMem)
  nextId_eq := by rw [h.nextId_eq, List.length_map]
  fresh s hMem := by
    obtain ⟨r, hr, rfl⟩ := List.mem_map.1 hMem
    exact h.fresh r hr
  orderly := by
    have hEffect : TableCall.Effect u (.update (new.map (·.id)) patch)
        { u with records := (new.map (·.id)).foldl (patchOne patch) u.records, calls := calls } :=
      .patched _ patch rfl rfl
    exact hEffect.isOrderly h.orderly

theorem Gains.get?_new (h : t.Gains new u) (hMem : r ∈ new) : u.records.get? r.id = some r := by
  rw [← mem_values_iff h.orderly.keyed, h.values_eq]
  exact List.mem_append_right _ hMem

theorem Gains.get?_old (h : t.Gains new u) (hKeyed : t.IsKeyed)
    (hGet : t.records.get? id = some r) : u.records.get? id = some r := by
  obtain ⟨rfl, -⟩ := hKeyed id r hGet
  rw [← mem_values_iff h.orderly.keyed, h.values_eq]
  exact List.mem_append_left _ ((mem_values_iff hKeyed).2 hGet)

theorem Gains.matching_eq (h : t.Gains new u) (filter : SearchFilter) :
    u.matching filter = t.matching filter ++ new.filter filter.accepts := by
  rw [matching, matching, h.values_eq, List.filter_append]

/-- Readings that ask for confirmed records pass over new ones with a marker. -/
theorem Gains.matching_of_inflight (h : t.Gains new u) (hMarked : ∀ r ∈ new, r.isInflight = true)
    {filter : SearchFilter} (hCleared : filter.marker = .cleared) :
    u.matching filter = t.matching filter := by
  have hNone : new.filter filter.accepts = [] := by
    refine List.filter_eq_nil_iff.2 fun r hMem => ?_
    have hInflight := hMarked r hMem
    rw [PartnerRecord.isInflight, Bool.not_eq_true'] at hInflight
    simp [SearchFilter.accepts, hCleared, MarkerFilter.accepts, hInflight]
  rw [h.matching_eq, hNone, List.append_nil]

/-! ## Calls of a creation -/

/-- One more creating call. -/
theorem Gains.create (h : t.Gains new u) (time : Time) (r : NewRecord) :
    (∃ e v, runOn (RecordTable.create time r) u = (.error e, v) ∧ u.refusal? r ≠ none ∧
      t.Gains new v) ∨
    ∃ v, runOn (RecordTable.create time r) u = (.ok u.nextId, v) ∧ u.refusal? r = none ∧
      v.failures = u.admitted.failures ∧ t.Gains (new ++ [r.stored u.nextId time]) v := by
  rw [runOn_create]
  cases hRefusal : u.refusal? r with
  | some e => exact .inl ⟨e, u.admitted, rfl, nofun, h.agrees ⟨rfl, rfl⟩⟩
  | none =>
    have hNone : u.admitted.objection r = none := (refusal?_eq_none_iff.1 hRefusal).2
    have hAdmitted : t.Gains new u.admitted := h.agrees ⟨rfl, rfl⟩
    exact .inr ⟨_, rfl, rfl, rfl, hAdmitted.added hNone⟩

end RecordTable

namespace BillingDirectory

open RecordTable

variable {t u : RecordTable} {marker : String} {account : BillingAccount} {id : Int}
  {company : PartnerRecord}

theorem refusal?_company : t.refusal? ((companyOf account).withMarker marker) = none ↔
    t.failures.createsLeft ≠ some 0 ∧ isBlankText account.legalName = false := by
  rw [refusal?_eq_none_iff, objection_eq_none_iff]
  simp [companyOf, NewRecord.company, NewRecord.withMarker]

theorem refusal?_invoice (hGet : t.records.get? id = some company)
    (hKind : company.kind = .company) :
    t.refusal? ((invoiceOf account id).withMarker marker) = none ↔
      t.failures.createsLeft ≠ some 0 ∧ isBlankText account.legalName = false := by
  rw [refusal?_eq_none_iff, objection_eq_none_iff]
  simp [invoiceOf, NewRecord.invoice, NewRecord.withMarker, hGet, hKind]

/-- No call of a creation will be refused. -/
structure Admits (t : RecordTable) (account : BillingAccount) : Prop where
  named : isBlankText account.legalName = false
  creates : ∀ n, t.failures.createsLeft = some n → 2 ≤ n
  updates : t.failures.updates = false

/-- The entity of an account, if its records have been given an identifier and the next one. -/
def entityOf (account : BillingAccount) (id : Int) (time time' : Time) : BillingEntity :=
  ⟨(companyOf account).stored id time, (invoiceOf account id).stored (id + 1) time'⟩

/-- How a creation ends: it leaves some records with its marker, or two confirmed ones. -/
inductive Ended (t : RecordTable) (marker : String) (account : BillingAccount) :
    Except BillingError RecordLink × RecordTable → Prop
  | failed (e : BillingError) (left : List PartnerRecord) {u : RecordTable}
      (hRefused : ¬ Admits t account) (hGains : t.Gains left u)
      (hMarked : ∀ r ∈ left, r.marker = marker) (hFew : left.length ≤ 2) :
      Ended t marker account (.error e, u)
  | confirmed (time time' : Time) {u : RecordTable} (hAdmitted : Admits t account)
      (hGains : t.Gains [(entityOf account t.nextId time time').company,
        (entityOf account t.nextId time time').invoice] u) :
      Ended t marker account (.ok ⟨t.nextId, t.nextId + 1⟩, u)

def companyDraft (marker : String) (account : BillingAccount) (id : Int) (time : Time) :
    PartnerRecord :=
  ((companyOf account).withMarker marker).stored id time

def invoiceDraft (marker : String) (account : BillingAccount) (company : Int) (time : Time) :
    PartnerRecord :=
  ((invoiceOf account company).withMarker marker).stored (company + 1) time

/-- The last call of a creation confirms both records. -/
theorem update_ended {time time' : Time} (hKeyed : t.IsKeyed)
    (hGains : t.Gains
      [companyDraft marker account t.nextId time, invoiceDraft marker account t.nextId time'] u)
    (hReady : Admits t account ↔ u.failures.updates = false) :
    Ended t marker account (runOn (do
      RecordTable.update [t.nextId, t.nextId + 1] .clearMarker
      return (⟨t.nextId, t.nextId + 1⟩ : RecordLink)) u) := by
  rw [runOn_bind, runOn_update]
  dsimp only
  cases hUpdates : u.failures.updates with
  | true =>
    have hRefused : ¬ Admits t account := by
      rw [hReady, hUpdates]
      exact Bool.noConfusion
    have hMarked : ∀ r ∈ [companyDraft marker account t.nextId time,
        invoiceDraft marker account t.nextId time'], r.marker = marker := by
      intro r hMem
      rcases List.mem_pair.1 hMem with rfl | rfl <;> rfl
    exact .failed _ _ hRefused (hGains.agrees ⟨rfl, rfl⟩) hMarked (Nat.le_refl 2)
  | false =>
    have hFound : u.missing? [t.nextId, t.nextId + 1] = none := by
      rw [missing?_eq_none_iff]
      intro id hMem
      rcases List.mem_pair.1 hMem with rfl | rfl
      · exact ⟨_, hGains.get?_new List.mem_cons_self⟩
      · exact ⟨_, hGains.get?_new (List.mem_cons_of_mem _ List.mem_cons_self)⟩
    rw [if_neg Bool.false_ne_true, hFound]
    have hConfirmed := hGains.patched hKeyed .clearMarker
      { u.calls with update := u.calls.update + 1 }
    exact .confirmed time time' (hReady.2 hUpdates) hConfirmed

/-- The second call of a creation adds the invoice record. -/
theorem invoice_ended (read : RecordTable → Time) {time : Time} (hKeyed : t.IsKeyed)
    (hGains : t.Gains [companyDraft marker account t.nextId time] u)
    (hFailures : u.failures = t.admitted.failures)
    (hNamed : isBlankText account.legalName = false) :
    Ended t marker account (runOn (do
      let invoiceId ← (RecordTable.system Cell.whole (clock read)).create
        ((invoiceOf account t.nextId).withMarker marker)
      RecordTable.update [t.nextId, invoiceId] .clearMarker
      return (⟨t.nextId, invoiceId⟩ : RecordLink)) u) := by
  have hCompany := hGains.get?_new (List.mem_singleton_self _)
  have hAccepted : u.refusal? ((invoiceOf account t.nextId).withMarker marker) = none ↔ _ :=
    refusal?_invoice hCompany rfl
  -- Of the creations that are left before a failure, the first call has used up one.
  have hEnough : u.failures.createsLeft ≠ some 0 ↔
      ∀ n, t.failures.createsLeft = some n → 2 ≤ n := by
    rw [hFailures, admitted]
    cases hCreates : t.failures.createsLeft with
    | none => simp
    | some n =>
      simp only [Option.map_some, ne_eq, Option.some.injEq]
      constructor
      · rintro hMore m rfl
        omega
      · intro hMore
        have hTwo := hMore n rfl
        omega
  rw [runOn_bind, runOn_system_create]
  rcases hGains.create (read u) ((invoiceOf account t.nextId).withMarker marker) with
    ⟨e, v, hRun, hRefused, hOne⟩ | ⟨v, hRun, hSecond, hFailures', hBoth⟩
  · rw [hRun]
    have hNot : ¬ Admits t account := by
      intro h
      exact hRefused (hAccepted.2 ⟨hEnough.2 h.creates, h.named⟩)
    exact .failed e _ hNot hOne (by simp [companyDraft, NewRecord.withMarker, NewRecord.stored])
      (Nat.le_succ 1)
  · rw [hRun]
    have hNext : u.nextId = t.nextId + 1 := hGains.nextId_eq
    rw [hNext] at hBoth ⊢
    have hUpdates : v.failures.updates = t.failures.updates := by
      rw [hFailures', admitted, hFailures, admitted]
    refine update_ended hKeyed hBoth ?_
    rw [hUpdates]
    constructor
    · intro h
      exact h.updates
    · intro hServed
      exact ⟨hNamed, hEnough.1 (hAccepted.1 hSecond).1, hServed⟩

theorem createMarked_ended (read : RecordTable → Time) (hOrderly : t.IsOrderly) :
    Ended t marker account
      (runOn (createMarked (RecordTable.system Cell.whole (clock read)) marker account) t) := by
  have hStart : t.Gains [] t := gains_nil hOrderly ⟨rfl, rfl⟩
  rw [createMarked, runOn_bind, runOn_system_create]
  rcases hStart.create (read t) ((companyOf account).withMarker marker) with
    ⟨e, u, hRun, hRefused, hNothing⟩ | ⟨u, hRun, hFirst, hFailures, hCompany⟩
  · rw [hRun]
    have hNot : ¬ Admits t account := by
      intro h
      refine hRefused (refusal?_company.2 ⟨?_, h.named⟩)
      intro hZero
      have hTwo := h.creates 0 hZero
      omega
    exact .failed e [] hNot hNothing (by simp) (Nat.zero_le 2)
  · rw [hRun]
    have hNamed := (refusal?_company.1 hFirst).2
    exact invoice_ended read hOrderly.keyed hCompany hFailures hNamed

theorem create_ended (read : RecordTable → Time) (hOrderly : t.IsOrderly) :
    Ended t marker account
      (runOn (create (RecordTable.system Cell.whole (clock read)) marker account) t) := by
  have hEnded : Ended t marker account _ := createMarked_ended read hOrderly
  simp only [create, runOn_bind, runOn_lift, run_run_eq_runOn]
  generalize runOn (createMarked _ marker account) t = answered at hEnded ⊢
  cases hEnded with
  | failed e left hRefused hGains hMarked hFew =>
    exact .failed e left hRefused (hGains.agrees ⟨rfl, rfl⟩) hMarked hFew
  | confirmed time time' hAdmitted hGains => exact .confirmed time time' hAdmitted hGains

/-! ## What others see of it -/

structure Represents (entity : BillingEntity) (account : BillingAccount) : Prop where
  company_name : entity.company.name = account.legalName
  company_reference : entity.company.reference = account.organization
  company_marker : entity.company.marker = clearedMarker
  invoice_name : entity.invoice.name = account.legalName
  invoice_reference : entity.invoice.reference = account.organization
  invoice_email : entity.invoice.email = some account.billingEmail
  invoice_marker : entity.invoice.marker = clearedMarker

/-- A creation has added one entity, that of its link. -/
structure Created (system : RecordSystem (StateM RecordTable)) (t u : RecordTable)
    (account : BillingAccount) (link : RecordLink) : Prop where
  kept : ∀ id r, t.records.get? id = some r → u.records.get? id = some r
  listed : ∃ before entity, (runOn (list system) t).1 = .ok before ∧
    (runOn (list system) u).1 = .ok (before ++ [entity]) ∧ entity.link = link ∧
    Represents entity account

/-- A creation has added nothing but some records with its marker, which nobody reads and the next
sweep that is late enough removes. -/
structure Abandoned (system : RecordSystem (StateM RecordTable)) (t u : RecordTable)
    (marker : String) (left : List PartnerRecord) : Prop where
  values_eq : u.records.values = t.records.values ++ left
  kept : ∀ id r, t.records.get? id = some r → u.records.get? id = some r
  few : left.length ≤ 2
  marked : isCleared marker = false ∧ ∀ r ∈ left, r.marker = marker
  list_eq : (runOn (list system) u).1 = (runOn (list system) t).1
  get_eq : ∀ link, (runOn (get system link) u).1 = (runOn (get system link) t).1
  /-- Whatever is called before the sweep, unless it clears one of the markers. -/
  swept : ∀ (later : List TableCall) (config : ScavengerConfig) (now cutoff : Time),
    (∀ call ∈ later, ∀ r ∈ left, ¬ call.Confirms r.id) →
    config.cutoff? now = some cutoff → (∀ r ∈ left, r.createdAt < cutoff) →
    (TableCall.applyAll later u).failures.deletes = false →
    ∃ found v, runOn (Scavenger.sweepAt system config now) (TableCall.applyAll later u) =
      (.ok found, v) ∧ ∀ r ∈ left, v.records.get? r.id = none

variable {read : RecordTable → Time}

/-- The entity of two new records that are confirmed is listed last. -/
theorem entities_confirmed {entity : BillingEntity} (hOrderly : t.IsOrderly)
    (hGains : t.Gains [entity.company, entity.invoice] u)
    (hPair : IsPair entity.company entity.invoice)
    (hCompany : isCleared entity.company.marker = true)
    (hInvoice : isCleared entity.invoice.marker = true) :
    entities (u.matching .confirmed) = entities (t.matching .confirmed) ++ [entity] := by
  have hMatching : u.matching .confirmed =
      t.matching .confirmed ++ [entity.company, entity.invoice] := by
    rw [hGains.matching_eq]
    simp [SearchFilter.accepts, SearchFilter.confirmed, MarkerFilter.accepts, hCompany, hInvoice]
  have hAscending := ascending_matching hGains.orderly.keyed .confirmed
  rw [hMatching] at hAscending ⊢
  refine entities_append_pair hAscending hPair ?_
  -- A record that is there already belongs to an older company, if to any.
  intro r hMem hParent
  obtain ⟨hGet, -⟩ := (mem_matching hOrderly.keyed).1 hMem
  have hGiven := (hOrderly.keyed r.id r hGet).2
  have hBefore := hOrderly.parent_lt r.id r _ hGet hParent
  have hFresh := hGains.fresh entity.company List.mem_cons_self
  omega

theorem created {time time' : Time} (hOrderly : t.IsOrderly)
    (hGains : t.Gains [(entityOf account t.nextId time time').company,
      (entityOf account t.nextId time time').invoice] u) :
    Created (RecordTable.system Cell.whole (clock read)) t u account ⟨t.nextId, t.nextId + 1⟩ where
  kept id r hGet := hGains.get?_old hOrderly.keyed hGet
  listed := by
    refine ⟨_, entityOf account t.nextId time time', fst_runOn_list _ t, ?_, rfl,
      ⟨rfl, rfl, rfl, rfl, rfl, rfl, rfl⟩⟩
    rw [fst_runOn_list, entities_confirmed hOrderly hGains ⟨rfl, rfl, rfl⟩ rfl rfl]

/-- A new record with a marker is gone after a sweep that is late enough. -/
theorem removed_by_sweep {new : List PartnerRecord} {r : PartnerRecord} {later : List TableCall}
    {v : RecordTable} {cutoff : Time} {found : SweepReport} (hGains : t.Gains new u)
    (hMem : r ∈ new) (hInflight : r.isInflight = true) (hNot : ∀ call ∈ later, ¬ call.Confirms r.id)
    (hOld : r.createdAt < cutoff)
    (hSwept : Scavenger.Swept cutoff (TableCall.applyAll later u) v found) :
    v.records.get? r.id = none := by
  have hGet := hGains.get?_new hMem
  have hAbandoned : u.IsAbandoned r.id r.createdAt := by
    refine ⟨(hGains.orderly.keyed r.id r hGet).2, ?_⟩
    intro s hSame
    obtain rfl := Option.some.inj (hGet.symm.trans hSame)
    exact ⟨hInflight, rfl⟩
  have hStill := TableCall.isAbandoned_applyAll hAbandoned hNot
  refine hSwept.get?_eq_none ?_
  intro s hFound
  obtain ⟨hMark, hTime⟩ := hStill.inflight s hFound
  rw [PartnerRecord.isOverdue, hMark, hTime, Bool.true_and]
  exact decide_eq_true hOld

theorem abandoned {left : List PartnerRecord} (hOrderly : t.IsOrderly)
    (hMarker : isCleared marker = false) (hGains : t.Gains left u)
    (hMarked : ∀ r ∈ left, r.marker = marker) (hFew : left.length ≤ 2) :
    Abandoned (RecordTable.system Cell.whole (clock read)) t u marker left := by
  have hInflight : ∀ r ∈ left, r.isInflight = true := by
    intro r hMem
    rw [PartnerRecord.isInflight, hMarked r hMem, hMarker, Bool.not_false]
  exact {
    values_eq := hGains.values_eq
    kept := fun id r hGet => hGains.get?_old hOrderly.keyed hGet
    few := hFew
    marked := ⟨hMarker, hMarked⟩
    list_eq := by
      rw [fst_runOn_list, fst_runOn_list, hGains.matching_of_inflight hInflight rfl]
    get_eq := by
      intro link
      rw [fst_runOn_get, fst_runOn_get, hGains.matching_of_inflight hInflight rfl,
        hGains.matching_of_inflight hInflight rfl]
    swept := by
      intro later config now cutoff hNot hCutoff hOld hServed
      have hLater : (TableCall.applyAll later u).IsOrderly :=
        TableCall.isOrderly_applyAll hGains.orderly
      obtain ⟨found, v, hRun, hSwept⟩ := Scavenger.exists_swept hLater.keyed hCutoff hServed
      refine ⟨found, v, hRun, ?_⟩
      intro r hMem
      exact removed_by_sweep hGains hMem (hInflight r hMem)
        (fun call hCall => hNot call hCall r hMem) (hOld r hMem) hSwept }

end BillingDirectory

/-- **A creation adds an entity or nothing that anyone reads.** -/
theorem creation_all_or_nothing (calls : List TableCall) (read : RecordTable → Time)
    (marker : String) (hMarker : marker.length = markerLength) (account : BillingAccount) :
    let system := RecordTable.system Cell.whole (RecordTable.clock read)
    let t := TableCall.reached calls
    ∀ result u, runOn (BillingDirectory.create system marker account) t = (result, u) →
      match result with
      | .ok link => BillingDirectory.Admits t account ∧
        BillingDirectory.Created system t u account link
      | .error _ => ¬ BillingDirectory.Admits t account ∧
        ∃ left, BillingDirectory.Abandoned system t u marker left := by
  intro system t result u hRun
  have hOrderly := TableCall.isOrderly_reached calls
  have hEnded : BillingDirectory.Ended t marker account (result, u) :=
    hRun ▸ BillingDirectory.create_ended read hOrderly
  cases hEnded with
  | failed e left hRefused hGains hMarked hFew =>
    exact ⟨hRefused, left, BillingDirectory.abandoned hOrderly (isCleared_of_length hMarker) hGains
      hMarked hFew⟩
  | confirmed time time' hAdmitted hGains =>
    exact ⟨hAdmitted, BillingDirectory.created hOrderly hGains⟩

/-- A creation that succeeds, and one of which the second call is refused. -/
theorem creation_all_or_nothing_halfway :
    let marker := "abandoned-marker-no-0001"
    let account : BillingAccount := .new "acme" "Acme Corp" "billing@acme.example"
    let system := RecordTable.system Cell.whole (RecordTable.clock fun t => ⟨t.calls.create, 0⟩)
    marker.length = markerLength ∧
    (∃ u, runOn (BillingDirectory.create system marker account) (TableCall.reached []) =
        (.ok ⟨1, 2⟩, u) ∧
      BillingDirectory.Created system (TableCall.reached []) u account ⟨1, 2⟩) ∧
    ∃ u left, runOn (BillingDirectory.create system marker account)
        (TableCall.reached [.failCreatesAfter 1]) =
        (.error (.unavailable "create failed"), u) ∧ u.records.keys = [1] ∧
      BillingDirectory.Abandoned system (TableCall.reached [.failCreatesAfter 1]) u marker
        left := by
  intro marker account system
  have hLength : marker.length = markerLength := by decide +kernel
  have hWhole : (runOn (BillingDirectory.create system marker account) (TableCall.reached [])).1 =
      .ok ⟨1, 2⟩ := by decide +kernel
  have hHalf : (runOn (BillingDirectory.create system marker account)
      (TableCall.reached [.failCreatesAfter 1])).1 = .error (.unavailable "create failed") := by
    decide +kernel
  have hKeys : (runOn (BillingDirectory.create system marker account)
      (TableCall.reached [.failCreatesAfter 1])).2.records.keys = [1] := by
    decide +kernel
  have hCreated := (creation_all_or_nothing _ _ marker hLength account _ _ (Prod.ext hWhole rfl)).2
  obtain ⟨left, hLeft⟩ :=
    (creation_all_or_nothing _ _ marker hLength account _ _ (Prod.ext hHalf rfl)).2
  exact ⟨hLength, ⟨_, Prod.ext hWhole rfl, hCreated⟩, _, left, Prod.ext hHalf rfl, hKeys, hLeft⟩

end Tenancy
