import Tenancy.Proofs.Billing.Programs

/-!
# The stages of a process

What is true of a process between its calls (`Process.Stage`): of a creation, that its records are
pending until they are confirmed together; of a sweep, that what it is about to delete is stale; of
a reading, that what it has found is kept.

* `Process.Stage.step`: the next call of a process leads to a stage again, and the table evolves.
* `Process.Stage.evolves`: a stage outlasts the calls of others.
-/

namespace Tenancy

open BillingDirectory Scavenger RecordTable

variable {config : ScavengerConfig} {clock now : Time} {own : Int → Prop} {t u : RecordTable}
  {fault : Option BillingError}

theorem RecordTable.Outcome.answered {α : Type} {op : Op α} {Q : α → RecordTable → Prop}
    (h : t.Outcome Q (runOn op t)) (fault : Option BillingError) :
    t.Outcome Q (answer fault op t) := by
  cases fault with
  | none => exact h
  | some e => exact .failed ⟨rfl, rfl⟩

theorem agrees_answer_search (fault : Option BillingError) (filter : SearchFilter)
    (t : RecordTable) : t.Agrees (answer fault (RecordTable.search filter) t).2 := by
  cases fault <;> exact ⟨rfl, rfl⟩

/-! ## Creations -/

namespace Attempt

/-- Where a creation can be between its calls. -/
inductive Stage (t : RecordTable) (clock : Time) : Attempt → Prop
  | company {marker : String} {account : BillingAccount} (hMarker : isCleared marker = false) :
      Stage t clock ⟨createCompany marker account, [], false⟩
  | invoice {marker : String} {account : BillingAccount} {company : PartnerRecord}
      (hMarker : isCleared marker = false) (hKind : company.kind = .company)
      (hCompany : t.IsPending clock company) :
      Stage t clock ⟨createInvoice marker account company.id, [company], false⟩
  | update {marker : String} {company invoice : PartnerRecord} (hPair : IsPair company invoice)
      (hCompany : t.IsPending clock company) (hInvoice : t.IsPending clock invoice)
      (hOrder : company.createdAt ≤ invoice.createdAt) :
      Stage t clock ⟨confirm marker ⟨company.id, invoice.id⟩, [company, invoice], false⟩
  | failing {marker : String} {e : BillingError} {created : List PartnerRecord}
      (hCreated : ∀ r ∈ created, t.IsPending clock r) :
      Stage t clock ⟨lookUp marker e, created, false⟩
  | failed {e : BillingError} {created : List PartnerRecord}
      (hCreated : ∀ r ∈ created, t.IsPending clock r) :
      Stage t clock ⟨.done (.error e), created, false⟩
  | confirmed {company invoice : PartnerRecord} (hPair : IsPair company invoice)
      (hCompany : t.Keeps (RecordPatch.clearMarker.apply company))
      (hInvoice : t.Keeps (RecordPatch.clearMarker.apply invoice)) :
      Stage t clock ⟨.done (.ok ⟨company.id, invoice.id⟩), [company, invoice], true⟩

def Owns (a : Attempt) (id : Int) : Prop := ∃ r ∈ a.created, r.id = id

variable {a : Attempt}

theorem Stage.created_given (h : a.Stage t clock) (hKeyed : t.IsKeyed) :
    ∀ r ∈ a.created, r.id < t.nextId := by
  have hPair : ∀ {r s : PartnerRecord}, r.id < t.nextId → s.id < t.nextId →
      ∀ x ∈ [r, s], x.id < t.nextId := by
    intro r s hr hs x hMem
    rcases List.mem_pair.1 hMem with rfl | rfl
    · exact hr
    · exact hs
  cases h with
  | company => exact fun r hMem => absurd hMem List.not_mem_nil
  | invoice _ _ hCompany => exact fun r hMem => List.mem_singleton.1 hMem ▸ hCompany.given
  | update _ hCompany hInvoice => exact hPair hCompany.given hInvoice.given
  | failing hCreated => exact fun r hMem => (hCreated r hMem).given
  | failed hCreated => exact fun r hMem => (hCreated r hMem).given
  | confirmed _ hCompany hInvoice =>
    exact hPair (hKeyed _ _ hCompany.1).2 (hKeyed _ _ hInvoice.1).2

theorem Stage.evolves (h : a.Stage t clock) (hKeyed : t.IsKeyed)
    (hEvolves : t.Evolves config.gracePeriodSecs now own u) (hClock : clock ≤ now)
    (hOther : ∀ r ∈ a.created, ¬ own r.id) : a.Stage u now := by
  cases h with
  | company hMarker => exact .company hMarker
  | invoice hMarker hKind hCompany =>
    exact .invoice hMarker hKind (hCompany.evolves hEvolves hClock (hOther _ (by simp)))
  | update hPair hCompany hInvoice hOrder =>
    exact .update hPair (hCompany.evolves hEvolves hClock (hOther _ (by simp)))
      (hInvoice.evolves hEvolves hClock (hOther _ (by simp))) hOrder
  | failing hCreated =>
    exact .failing fun r hMem => (hCreated r hMem).evolves hEvolves hClock (hOther r hMem)
  | failed hCreated =>
    exact .failed fun r hMem => (hCreated r hMem).evolves hEvolves hClock (hOther r hMem)
  | confirmed hPair hCompany hInvoice =>
    exact .confirmed hPair (hCompany.evolves hKeyed hEvolves) (hInvoice.evolves hKeyed hEvolves)

/-- Until its update a creation has only records that are pending. -/
theorem Stage.isPending (h : a.Stage t clock) (hUnconfirmed : a.confirmed = false) :
    ∀ r ∈ a.created, t.IsPending clock r := by
  cases h with
  | company => exact fun r hMem => absurd hMem List.not_mem_nil
  | invoice _ _ hCompany => exact fun r hMem => List.mem_singleton.1 hMem ▸ hCompany
  | update _ hCompany hInvoice =>
    intro r hMem
    rcases List.mem_pair.1 hMem with rfl | rfl
    · exact hCompany
    · exact hInvoice
  | failing hCreated => exact hCreated
  | failed hCreated => exact hCreated
  | confirmed => cases hUnconfirmed

/-- A creation that has come to its end leaves what it has created, confirmed. -/
theorem Stage.holds (h : a.Stage t clock) {link : RecordLink}
    (hDone : a.program = .done (.ok link)) :
    ∃ entity : BillingEntity, entity.link = link ∧
      a.created.map RecordPatch.clearMarker.apply = [entity.company, entity.invoice] ∧
      t.Holds entity := by
  cases h with
  | @confirmed company invoice hPair hCompany hInvoice =>
    obtain rfl := Except.ok.inj (RecordProgram.done.inj hDone)
    exact ⟨⟨RecordPatch.clearMarker.apply company, RecordPatch.clearMarker.apply invoice⟩, rfl, rfl,
      hCompany, hInvoice, hPair.company_kind, hPair.invoice_kind, hPair.parent⟩
  | company => cases hDone
  | invoice => cases hDone
  | update => cases hDone
  | failing => cases hDone
  | failed => cases hDone

/-- A creation and the table have gone on by a call of the creation. -/
structure Advances (config : ScavengerConfig) (now : Time) (t : RecordTable) (a : Attempt)
    (next : Attempt × RecordTable) : Prop where
  evolves : t.Evolves config.gracePeriodSecs now a.Owns next.2
  stage : next.1.Stage next.2 now
  created : ∀ r ∈ next.1.created, r ∈ a.created ∨ t.nextId ≤ r.id

/-- After a call that fails a creation has no more records than before. -/
theorem advances_of_agrees {b : Attempt} (hKeyed : t.IsKeyed) (hAgrees : t.Agrees u)
    (hClock : clock ≤ now) (hCreated : ∀ r ∈ a.created, t.IsPending clock r)
    (hStage : (∀ r ∈ a.created, u.IsPending now r) → b.Stage u now)
    (hSame : b.created = a.created) : Advances config now t a (b, u) := by
  have hQuiet : t.Evolves config.gracePeriodSecs now (fun _ => False) u := hAgrees.evolves hKeyed
  exact ⟨hAgrees.evolves hKeyed, hStage fun r hMem => (hCreated r hMem).evolves hQuiet hClock id,
    fun _ hMem => .inl (hSame ▸ hMem)⟩

theorem mem_created {old : List PartnerRecord} {new : PartnerRecord} (hId : new.id = t.nextId) :
    ∀ r ∈ old ++ [new], r ∈ old ∨ t.nextId ≤ r.id := by
  intro r hMem
  rcases List.mem_append.1 hMem with hOld | hNew
  · exact .inl hOld
  · exact .inr (List.mem_singleton.1 hNew ▸ Int.le_of_eq hId.symm)

theorem advances_company {marker : String} {account : BillingAccount} (hKeyed : t.IsKeyed)
    (hNow : now.IsOrdinary) (hClock : clock ≤ now) (hMarker : isCleared marker = false) :
    Advances config now t ⟨createCompany marker account, [], false⟩
      (Attempt.step now fault t ⟨createCompany marker account, [], false⟩) := by
  have hOutcome := (create_outcome now ((companyOf account).withMarker marker) t).answered fault
  simp only [Attempt.step, createCompany]
  generalize answer fault _ t = answered at hOutcome ⊢
  cases hOutcome with
  | failed hAgrees => exact advances_of_agrees hKeyed hAgrees hClock (by simp) .failing rfl
  | done hDone =>
    obtain ⟨rfl, hRecords, hNext⟩ := hDone
    have hCompany := isPending_stored hMarker hNow hRecords hNext
    exact ⟨evolves_create hKeyed rfl hRecords hNext, .invoice hMarker rfl hCompany,
      mem_created rfl⟩

theorem advances_invoice {marker : String} {account : BillingAccount} {company : PartnerRecord}
    (hKeyed : t.IsKeyed) (hNow : now.IsOrdinary) (hClock : clock ≤ now)
    (hMarker : isCleared marker = false) (hKind : company.kind = .company)
    (hCompany : t.IsPending clock company) :
    Advances config now t ⟨createInvoice marker account company.id, [company], false⟩
      (Attempt.step now fault t ⟨createInvoice marker account company.id, [company], false⟩) := by
  have hOutcome :=
    (create_outcome now ((invoiceOf account company.id).withMarker marker) t).answered fault
  simp only [Attempt.step, createInvoice]
  generalize answer fault _ t = answered at hOutcome ⊢
  cases hOutcome with
  | failed hAgrees => exact advances_of_agrees hKeyed hAgrees hClock (by simpa) .failing rfl
  | done hDone =>
    obtain ⟨rfl, hRecords, hNext⟩ := hDone
    have hQuiet : t.Evolves config.gracePeriodSecs now (fun _ => False) _ :=
      evolves_create hKeyed rfl hRecords hNext
    have hInvoice := isPending_stored hMarker hNow hRecords hNext
    have hOrder := Time.le_trans hCompany.created_le hClock
    exact ⟨evolves_create hKeyed rfl hRecords hNext,
      .update ⟨hKind, rfl, rfl⟩ (hCompany.evolves hQuiet hClock id) hInvoice hOrder,
      mem_created rfl⟩

/-- The update comes in time for the company record, and so for the invoice record, which is not
older: neither can be about to be deleted. -/
theorem advances_update {marker : String} {company invoice : PartnerRecord} (hKeyed : t.IsKeyed)
    (hClock : clock ≤ now) (hPair : IsPair company invoice) (hCompany : t.IsPending clock company)
    (hInvoice : t.IsPending clock invoice) (hOrder : company.createdAt ≤ invoice.createdAt)
    (hTimely : now ≤ company.createdAt.after config.gracePeriodSecs) :
    Advances config now t ⟨confirm marker ⟨company.id, invoice.id⟩, [company, invoice], false⟩
      (Attempt.step now fault t
        ⟨confirm marker ⟨company.id, invoice.id⟩, [company, invoice], false⟩) := by
  have hOutcome := (update_outcome [company.id, invoice.id] .clearMarker t).answered fault
  simp only [Attempt.step, confirm]
  generalize answer fault _ t = answered at hOutcome ⊢
  cases hOutcome with
  | failed hAgrees =>
    exact advances_of_agrees hKeyed hAgrees hClock (by simp [hCompany, hInvoice]) .failing rfl
  | done hDone =>
    obtain ⟨hExist, hRecords, hNext⟩ := hDone
    have hLater := Time.le_trans hTimely
      (Time.after_mono hCompany.ordinary hInvoice.ordinary hOrder config.gracePeriodSecs)
    have hKeeps : ∀ r, t.IsPending clock r → r.id ∈ [company.id, invoice.id] →
        RecordTable.Keeps _ (RecordPatch.clearMarker.apply r) := fun r hPending hMem => by
      obtain ⟨s, hGet⟩ := hExist r.id hMem
      refine ⟨?_, rfl⟩
      rw [hRecords, RecordPatch.id_clearMarker, get?_patched, if_pos hMem, hGet,
        hPending.unchanged s hGet]
      rfl
    refine ⟨evolves_confirm hKeyed ?_ ?_ hRecords hNext,
      .confirmed hPair (hKeeps company hCompany (by simp)) (hKeeps invoice hInvoice (by simp)),
      fun _ hMem => .inl hMem⟩
    · intro id hMem
      rcases List.mem_pair.1 hMem with rfl | rfl
      · exact ⟨company, by simp, rfl⟩
      · exact ⟨invoice, by simp, rfl⟩
    · intro id hMem r hGet
      rcases List.mem_pair.1 hMem with rfl | rfl
      · rwa [hCompany.unchanged r hGet]
      · rwa [hInvoice.unchanged r hGet]

/-- The next call of a creation. -/
theorem Stage.step (h : a.Stage t clock) (hKeyed : t.IsKeyed) (hNow : now.IsOrdinary)
    (hClock : clock ≤ now) (hTimely : a.isTimely config now = true) :
    Advances config now t a (a.step now fault t) := by
  cases h with
  | company hMarker => exact advances_company hKeyed hNow hClock hMarker
  | invoice hMarker hKind hCompany =>
    exact advances_invoice hKeyed hNow hClock hMarker hKind hCompany
  | update hPair hCompany hInvoice hOrder =>
    exact advances_update hKeyed hClock hPair hCompany hInvoice hOrder
      (by simpa [isTimely, confirm] using hTimely)
  | failing hCreated =>
    exact advances_of_agrees hKeyed (agrees_answer_search fault _ t) hClock hCreated .failed rfl
  | failed hCreated =>
    exact advances_of_agrees hKeyed ⟨rfl, rfl⟩ hClock hCreated .failed rfl
  | confirmed hPair hCompany hInvoice =>
    exact ⟨(Agrees.mk rfl rfl).evolves hKeyed, .confirmed hPair hCompany hInvoice,
      fun _ hMem => .inl hMem⟩

end Attempt

/-! ## Sweeps -/

inductive SweepStage (config : ScavengerConfig) (t : RecordTable) (clock : Time) :
    RecordProgram (Except SweepError SweepReport) → Prop
  | searching {began cutoff : Time} (hBegan : began ≤ clock) (hOrdinary : began.IsOrdinary)
      (hCutoff : config.cutoff? began = some cutoff) :
      SweepStage config t clock (sweepBefore cutoff)
  | deleting {ids : List Int} {found : SweepReport}
      (hStale : ∀ id ∈ ids, t.IsStale config.gracePeriodSecs clock id) :
      SweepStage config t clock (removeStale ids found)
  | done (result : Except SweepError SweepReport) : SweepStage config t clock (.done result)

theorem SweepStage.evolves {program : RecordProgram (Except SweepError SweepReport)}
    (h : SweepStage config t clock program)
    (hEvolves : t.Evolves config.gracePeriodSecs now own u) (hClock : clock ≤ now) :
    SweepStage config u now program := by
  cases h with
  | searching hBegan hOrdinary hCutoff =>
    exact .searching (Time.le_trans hBegan hClock) hOrdinary hCutoff
  | deleting hStale => exact .deleting fun id hMem => (hStale id hMem).evolves hEvolves hClock
  | done result => exact .done result

/-- What a sweep finds older than its cutoff is stale at any later time. -/
theorem isStale_of_mem_stale {began cutoff : Time} {id : Int} (hKeyed : t.IsKeyed)
    (hBegan : began ≤ clock) (hOrdinary : began.IsOrdinary)
    (hCutoff : config.cutoff? began = some cutoff)
    (hMem : id ∈ stale cutoff (t.matching .inflight)) :
    t.IsStale config.gracePeriodSecs clock id := by
  obtain ⟨r, hStale, rfl⟩ := List.mem_map.1 hMem
  obtain ⟨hFound, hOld⟩ := List.mem_filter.1 hStale
  obtain ⟨hGet, hAccepts⟩ := (mem_matching hKeyed).1 hFound
  refine ⟨(hKeyed r.id r hGet).2, fun s hSame => ?_⟩
  obtain rfl := Option.some.inj (hGet.symm.trans hSame)
  have hAfter := Time.after_lt_of_lt_before? hOrdinary (before?_of_cutoff? hCutoff)
    (of_decide_eq_true hOld)
  refine ⟨?_, Time.lt_of_lt_of_le hAfter hBegan⟩
  simpa [SearchFilter.accepts, SearchFilter.inflight, MarkerFilter.accepts] using hAccepts

/-- The next call of a sweep. -/
theorem SweepStage.step {program : RecordProgram (Except SweepError SweepReport)}
    (h : SweepStage config t clock program) (hKeyed : t.IsKeyed) (hClock : clock ≤ now) :
    t.Evolves config.gracePeriodSecs now own (program.step now fault t).2 ∧
      SweepStage config (program.step now fault t).2 now (program.step now fault t).1 := by
  cases h with
  | @searching began cutoff hBegan hOrdinary hCutoff =>
    have hAgrees := agrees_answer_search fault .inflight t
    refine ⟨hAgrees.evolves hKeyed, ?_⟩
    cases fault with
    | some e => exact .done _
    | none =>
      change SweepStage config _ now
        (if (stale cutoff (t.matching .inflight)).isEmpty then _ else _)
      split
      · exact .done _
      · refine .deleting fun id hMem => ?_
        have hStale := isStale_of_mem_stale hKeyed hBegan hOrdinary hCutoff hMem
        exact hStale.evolves (hAgrees.evolves hKeyed : t.Evolves _ _ own _) hClock
  | @deleting ids found hStale =>
    have hOutcome := (delete_outcome ids t).answered fault
    simp only [RecordProgram.step, removeStale]
    generalize answer fault _ t = answered at hOutcome ⊢
    cases hOutcome with
    | failed hAgrees => exact ⟨hAgrees.evolves hKeyed, .done _⟩
    | done hDone =>
      have hNow : ∀ id ∈ ids, t.IsStale config.gracePeriodSecs now id := fun id hMem =>
        (hStale id hMem).evolves ((Agrees.mk rfl rfl).evolves hKeyed : t.Evolves _ _ own t) hClock
      exact ⟨evolves_delete hKeyed hNow hDone.2.1 hDone.2.2, .done _⟩
  | done result => exact ⟨(Agrees.mk rfl rfl).evolves hKeyed, .done result⟩

/-! ## Readings -/

inductive ReadingStage (t : RecordTable) (link : RecordLink) :
    RecordProgram (Except BillingError BillingEntity) → Prop
  | findingCompany : ReadingStage t link (findCompany link)
  | findingInvoice {company : PartnerRecord} (hCompany : t.Keeps company)
      (hId : company.id = link.companyId) (hKind : company.kind = .company) :
      ReadingStage t link (findInvoice link company)
  | failed (e : BillingError) : ReadingStage t link (.done (.error e))
  | found {entity : BillingEntity} (hHolds : t.Holds entity) (hLink : entity.link = link) :
      ReadingStage t link (.done (.ok entity))

theorem RecordTable.Holds.evolves {entity : BillingEntity} (h : t.Holds entity)
    (hKeyed : t.IsKeyed) {grace : Nat} (hEvolves : t.Evolves grace now own u) : u.Holds entity where
  company := h.company.evolves hKeyed hEvolves
  invoice := h.invoice.evolves hKeyed hEvolves
  company_kind := h.company_kind
  invoice_kind := h.invoice_kind
  parent := h.parent

theorem ReadingStage.evolves {link : RecordLink}
    {program : RecordProgram (Except BillingError BillingEntity)}
    (h : ReadingStage t link program) (hKeyed : t.IsKeyed) {grace : Nat}
    (hEvolves : t.Evolves grace now own u) : ReadingStage u link program := by
  cases h with
  | findingCompany => exact .findingCompany
  | findingInvoice hCompany hId hKind =>
    exact .findingInvoice (hCompany.evolves hKeyed hEvolves) hId hKind
  | failed e => exact .failed e
  | found hHolds hLink => exact .found (hHolds.evolves hKeyed hEvolves) hLink

/-- The next call of a reading. -/
theorem ReadingStage.step {link : RecordLink}
    {program : RecordProgram (Except BillingError BillingEntity)}
    (h : ReadingStage t link program) (hKeyed : t.IsKeyed) :
    t.Agrees (program.step now fault t).2 ∧ ReadingStage t link (program.step now fault t).1 := by
  cases h with
  | findingCompany =>
    refine ⟨agrees_answer_search fault _ t, ?_⟩
    cases fault with
    | some e => exact .failed e
    | none =>
      change ReadingStage t link
        (afterCompany link (firstOr link.companyId (t.matching (companyFilter link))))
      cases hFound : firstOr link.companyId (t.matching (companyFilter link)) with
      | error e => exact .failed e
      | ok company =>
        obtain ⟨hKeeps, hId, hKind⟩ := (firstOr_company_iff hKeyed).1 hFound
        exact .findingInvoice hKeeps hId hKind
  | @findingInvoice company hCompany hId hKind =>
    refine ⟨agrees_answer_search fault _ t, ?_⟩
    cases fault with
    | some e => exact .failed e
    | none =>
      change ReadingStage t link
        (.done ((firstOr link.companyId (t.matching (invoiceFilter link))).map fun invoice =>
          ⟨company, invoice⟩))
      cases hFound : firstOr link.companyId (t.matching (invoiceFilter link)) with
      | error e => exact .failed e
      | ok invoice =>
        obtain ⟨hKeeps, hIdI, hKindI, hParent⟩ := (firstOr_invoice_iff hKeyed).1 hFound
        refine .found ⟨hCompany, hKeeps, hKind, hKindI, hId ▸ hParent⟩ ?_
        rw [BillingEntity.link, hId, hIdI]
  | failed e => exact ⟨⟨rfl, rfl⟩, .failed e⟩
  | found hHolds hLink => exact ⟨⟨rfl, rfl⟩, .found hHolds hLink⟩

inductive ListingStage (t : RecordTable) :
    RecordProgram (Except BillingError (List BillingEntity)) → Prop
  | searching : ListingStage t (.search .confirmed fun reply => .done (reply.map entities))
  | failed (e : BillingError) : ListingStage t (.done (.error e))
  | found {listed : List BillingEntity}
      (hKeeps : ∀ entity ∈ listed, t.Keeps entity.company ∧ t.Keeps entity.invoice) :
      ListingStage t (.done (.ok listed))

theorem ListingStage.evolves {program : RecordProgram (Except BillingError (List BillingEntity))}
    (h : ListingStage t program) (hKeyed : t.IsKeyed) {grace : Nat}
    (hEvolves : t.Evolves grace now own u) : ListingStage u program := by
  cases h with
  | searching => exact .searching
  | failed e => exact .failed e
  | found hKeeps =>
    exact .found fun entity hMem => ⟨(hKeeps entity hMem).1.evolves hKeyed hEvolves,
      (hKeeps entity hMem).2.evolves hKeyed hEvolves⟩

/-- The next call of a reading of all entities. -/
theorem ListingStage.step {program : RecordProgram (Except BillingError (List BillingEntity))}
    (h : ListingStage t program) (hKeyed : t.IsKeyed) :
    t.Agrees (program.step now fault t).2 ∧ ListingStage t (program.step now fault t).1 := by
  cases h with
  | searching =>
    refine ⟨agrees_answer_search fault _ t, ?_⟩
    cases fault with
    | some e => exact .failed e
    | none => exact .found fun entity hMem => keeps_of_mem_list hKeyed hMem
  | failed e => exact ⟨⟨rfl, rfl⟩, .failed e⟩
  | found hKeeps => exact ⟨⟨rfl, rfl⟩, .found hKeeps⟩

/-! ## Processes -/

namespace Process

def created : Process → List PartnerRecord
  | .creation a => a.created
  | _ => []

def Owns (p : Process) (id : Int) : Prop := ∃ r ∈ p.created, r.id = id

def Stage (config : ScavengerConfig) (t : RecordTable) (clock : Time) : Process → Prop
  | .creation a => a.Stage t clock
  | .sweep program => SweepStage config t clock program
  | .reading link program => ReadingStage t link program
  | .listing program => ListingStage t program

structure Advances (config : ScavengerConfig) (now : Time) (t : RecordTable) (p : Process)
    (next : Process × RecordTable) : Prop where
  evolves : t.Evolves config.gracePeriodSecs now p.Owns next.2
  stage : next.1.Stage config next.2 now
  created : ∀ r ∈ next.1.created, r ∈ p.created ∨ t.nextId ≤ r.id

variable {p : Process}

theorem Stage.created_given (h : p.Stage config t clock) (hKeyed : t.IsKeyed) :
    ∀ r ∈ p.created, r.id < t.nextId := by
  cases p with
  | creation a => exact Attempt.Stage.created_given h hKeyed
  | sweep => exact fun r hMem => absurd hMem List.not_mem_nil
  | reading => exact fun r hMem => absurd hMem List.not_mem_nil
  | listing => exact fun r hMem => absurd hMem List.not_mem_nil

/-- A stage outlasts the calls of processes that own other records. -/
theorem Stage.evolves (h : p.Stage config t clock) (hKeyed : t.IsKeyed)
    (hEvolves : t.Evolves config.gracePeriodSecs now own u) (hClock : clock ≤ now)
    (hOther : ∀ r ∈ p.created, ¬ own r.id) : p.Stage config u now := by
  cases p with
  | creation a => exact Attempt.Stage.evolves h hKeyed hEvolves hClock hOther
  | sweep program => exact SweepStage.evolves h hEvolves hClock
  | reading link program => exact ReadingStage.evolves h hKeyed hEvolves
  | listing program => exact ListingStage.evolves h hKeyed hEvolves

/-- The next call of a process. -/
theorem Stage.step (h : p.Stage config t clock) (hKeyed : t.IsKeyed) (hNow : now.IsOrdinary)
    (hClock : clock ≤ now) (hTimely : p.isTimely config now = true) :
    Advances config now t p (p.step now fault t) := by
  cases p with
  | creation a =>
    obtain ⟨hEvolves, hStage, hCreated⟩ := Attempt.Stage.step h hKeyed hNow hClock hTimely
    exact ⟨hEvolves, hStage, hCreated⟩
  | sweep program =>
    obtain ⟨hEvolves, hStage⟩ := SweepStage.step h hKeyed hClock
    exact ⟨hEvolves, hStage, fun r hMem => .inl hMem⟩
  | reading link program =>
    obtain ⟨hAgrees, hStage⟩ := ReadingStage.step h hKeyed
    have hEvolves : t.Evolves config.gracePeriodSecs now (Owns (.reading link program))
        (program.step now fault t).2 := hAgrees.evolves hKeyed
    exact ⟨hEvolves, hStage.evolves hKeyed hEvolves, fun r hMem => .inl hMem⟩
  | listing program =>
    obtain ⟨hAgrees, hStage⟩ := ListingStage.step h hKeyed
    have hEvolves : t.Evolves config.gracePeriodSecs now (Owns (.listing program))
        (program.step now fault t).2 := hAgrees.evolves hKeyed
    exact ⟨hEvolves, hStage.evolves hKeyed hEvolves, fun r hMem => .inl hMem⟩

end Process

end Tenancy
