import Tenancy.Proofs.Billing.Fates
import Tenancy.Proofs.Billing.Interleaving
import Tenancy.Proofs.Billing.Pairing

/-!
# The programs call by call

A creation is two creating calls and an update, a sweep a search and a deletion, a reading one or
two searches.  Here the programs are spelled out as what they do after each reply, and what a
reading finds is told from the table.

* `BillingDirectory.create_eq`, `BillingDirectory.get_eq`, `BillingDirectory.list_eq`,
  `Scavenger.sweepAt_eq`: the programs by their calls.
* `RecordTable.Holds`: both records of an entity are in the table, confirmed, and belong together.
* `BillingDirectory.get_eq_ok_iff`: exactly such entities are read by their links.
-/

namespace Tenancy

/-! ## Creations -/

namespace BillingDirectory

/-- The end of a creation that has failed: what it leaves behind is looked up. -/
def lookUp (marker : String) (e : BillingError) : RecordProgram (Except BillingError RecordLink) :=
  .search (.tagged marker) fun _ => .done (.error e)

def confirm (marker : String) (link : RecordLink) :
    RecordProgram (Except BillingError RecordLink) :=
  .update [link.companyId, link.invoiceId] .clearMarker fun
    | .ok () => .done (.ok link)
    | .error e => lookUp marker e

def createInvoice (marker : String) (account : BillingAccount) (companyId : Int) :
    RecordProgram (Except BillingError RecordLink) :=
  .create ((invoiceOf account companyId).withMarker marker) fun
    | .ok invoiceId => confirm marker ⟨companyId, invoiceId⟩
    | .error e => lookUp marker e

def createCompany (marker : String) (account : BillingAccount) :
    RecordProgram (Except BillingError RecordLink) :=
  .create ((companyOf account).withMarker marker) fun
    | .ok companyId => createInvoice marker account companyId
    | .error e => lookUp marker e

theorem create_eq (marker : String) (account : BillingAccount) :
    (create RecordProgram.system marker account).run = createCompany marker account := by
  refine congrArg (RecordProgram.create _) (funext fun reply => ?_)
  rcases reply with e | companyId
  · rfl
  refine congrArg (RecordProgram.create _) (funext fun reply => ?_)
  rcases reply with e | invoiceId
  · rfl
  refine congrArg (RecordProgram.update _ _) (funext fun reply => ?_)
  rcases reply with e | _ <;> rfl

end BillingDirectory

/-! ## Sweeps -/

theorem before?_of_cutoff? {config : ScavengerConfig} {now cutoff : Time}
    (hCutoff : config.cutoff? now = some cutoff) :
    now.before? config.gracePeriodSecs = some cutoff := by
  obtain ⟨grace, hGrace, hBefore⟩ := Option.bind_eq_some_iff.1 hCutoff
  rw [ScavengerConfig.gracePeriod?] at hGrace
  split at hGrace
  · obtain rfl := Option.some.inj hGrace
    exact hBefore
  · cases hGrace

namespace Scavenger

/-- A sweep that has found stale records. -/
def removeStale (ids : List Int) (found : SweepReport) :
    RecordProgram (Except SweepError SweepReport) :=
  .delete ids fun
    | .ok () => .done (.ok found)
    | .error e => .done (.error (.system e))

def sweepBefore (cutoff : Time) : RecordProgram (Except SweepError SweepReport) :=
  .search .inflight fun
    | .ok marked =>
      let ids := stale cutoff marked
      let found := report marked.length ids.length
      if ids.isEmpty then .done (.ok found) else removeStale ids found
    | .error e => .done (.error (.system e))

theorem sweepAt_eq (config : ScavengerConfig) (now : Time) :
    (sweepAt RecordProgram.system config now).run =
      match config.cutoff? now with
      | none => .done (.error .beyondCalendar)
      | some cutoff => sweepBefore cutoff := by
  rw [sweepAt]
  cases config.cutoff? now with
  | none => rfl
  | some cutoff =>
    refine congrArg (RecordProgram.search _) (funext fun reply => ?_)
    rcases reply with e | marked
    · rfl
    · simp only [RecordProgram.bind, Function.comp, mapError_ok, ExceptT.bindCont]
      cases hIds : (stale cutoff marked).isEmpty with
      | true => rfl
      | false =>
        refine congrArg (RecordProgram.delete _) (funext fun reply => ?_)
        rcases reply with e | _ <;> rfl

end Scavenger

/-! ## Readings -/

namespace BillingDirectory

def findInvoice (link : RecordLink) (company : PartnerRecord) :
    RecordProgram (Except BillingError BillingEntity) :=
  .search (invoiceFilter link) fun reply =>
    .done ((reply >>= firstOr link.companyId).map fun invoice => ⟨company, invoice⟩)

def afterCompany (link : RecordLink) :
    Except BillingError PartnerRecord → RecordProgram (Except BillingError BillingEntity)
  | .ok company => findInvoice link company
  | .error e => .done (.error e)

def findCompany (link : RecordLink) : RecordProgram (Except BillingError BillingEntity) :=
  .search (companyFilter link) fun reply => afterCompany link (reply >>= firstOr link.companyId)

theorem get_eq (link : RecordLink) : (get RecordProgram.system link).run = findCompany link := by
  refine congrArg (RecordProgram.search _) (funext fun reply => ?_)
  rcases reply with e | _ | ⟨company, _⟩
  · rfl
  · rfl
  refine congrArg (RecordProgram.search _) (funext fun reply => ?_)
  rcases reply with e | _ | ⟨invoice, _⟩ <;> rfl

theorem list_eq : (list RecordProgram.system).run =
    .search .confirmed fun reply => .done (reply.map entities) := by
  refine congrArg (RecordProgram.search _) (funext fun reply => ?_)
  rcases reply with e | records <;> rfl

end BillingDirectory

/-! ## What a reading finds -/

/-- Both records of the entity are in the table, confirmed, and belong together. -/
structure RecordTable.Holds (t : RecordTable) (entity : BillingEntity) : Prop where
  company : t.Keeps entity.company
  invoice : t.Keeps entity.invoice
  company_kind : entity.company.kind = .company
  invoice_kind : entity.invoice.kind = .invoice
  parent : entity.invoice.parentId = some entity.company.id

namespace BillingDirectory

variable {t : RecordTable} {link : RecordLink} {entity : BillingEntity} {r : PartnerRecord}

theorem firstOr_eq_ok_iff {id : Int} {records : List PartnerRecord} :
    firstOr id records = .ok r ↔ records.head? = some r := by
  cases records <;> simp [firstOr]

theorem firstOr_company_iff (hKeyed : t.IsKeyed) :
    firstOr link.companyId (t.matching (companyFilter link)) = .ok r ↔
      t.Keeps r ∧ r.id = link.companyId ∧ r.kind = .company := by
  rw [firstOr_eq_ok_iff, RecordTable.head?_matching hKeyed rfl]
  constructor
  · rintro ⟨hId, hGet, hAccepts⟩
    simp only [SearchFilter.accepts, companyFilter, SearchFilter.confirmed,
      Bool.and_eq_true] at hAccepts
    exact ⟨⟨hId ▸ hGet, hAccepts.2⟩, hId, by simpa using hAccepts.1.1.2⟩
  · rintro ⟨⟨hGet, hCleared⟩, hId, hKind⟩
    refine ⟨hId, hId ▸ hGet, ?_⟩
    simp [SearchFilter.accepts, companyFilter, SearchFilter.confirmed, MarkerFilter.accepts, hId,
      hKind, hCleared]

theorem firstOr_invoice_iff (hKeyed : t.IsKeyed) :
    firstOr link.companyId (t.matching (invoiceFilter link)) = .ok r ↔
      t.Keeps r ∧ r.id = link.invoiceId ∧ r.kind = .invoice ∧
        r.parentId = some link.companyId := by
  rw [firstOr_eq_ok_iff, RecordTable.head?_matching hKeyed rfl]
  constructor
  · rintro ⟨hId, hGet, hAccepts⟩
    simp only [SearchFilter.accepts, invoiceFilter, SearchFilter.confirmed,
      Bool.and_eq_true] at hAccepts
    exact ⟨⟨hId ▸ hGet, hAccepts.2⟩, hId, by simpa using hAccepts.1.1.2,
      by simpa using hAccepts.1.2⟩
  · rintro ⟨⟨hGet, hCleared⟩, hId, hKind, hParent⟩
    refine ⟨hId, hId ▸ hGet, ?_⟩
    simp [SearchFilter.accepts, invoiceFilter, SearchFilter.confirmed, MarkerFilter.accepts, hId,
      hKind, hParent, hCleared]

theorem firstOr_company_of_holds (hKeyed : t.IsKeyed) (hHolds : t.Holds entity) :
    firstOr entity.link.companyId (t.matching (companyFilter entity.link)) = .ok entity.company :=
  (firstOr_company_iff hKeyed).2 ⟨hHolds.company, rfl, hHolds.company_kind⟩

theorem firstOr_invoice_of_holds (hKeyed : t.IsKeyed) (hHolds : t.Holds entity) :
    firstOr entity.link.companyId (t.matching (invoiceFilter entity.link)) = .ok entity.invoice :=
  (firstOr_invoice_iff hKeyed).2 ⟨hHolds.invoice, rfl, hHolds.invoice_kind, hHolds.parent⟩

/-- A reading with nobody between its calls. -/
theorem fst_runOn_get (link : RecordLink) (clock : StateM RecordTable Time) (t : RecordTable) :
    (runOn (get (RecordTable.system Cell.whole clock) link) t).1 = do
      let company ← firstOr link.companyId (t.matching (companyFilter link))
      let invoice ← firstOr link.companyId (t.matching (invoiceFilter link))
      return ⟨company, invoice⟩ := by
  simp only [get, RecordTable.system, runOn_bind, runOn_whole, RecordTable.runOn_search,
    runOn_ofExcept]
  cases firstOr link.companyId (t.matching (companyFilter link)) with
  | error e => rfl
  | ok company =>
    simp only [RecordTable.matching_calls]
    cases firstOr link.companyId (t.matching (invoiceFilter link)) <;> rfl

theorem fst_runOn_list (clock : StateM RecordTable Time) (t : RecordTable) :
    (runOn (list (RecordTable.system Cell.whole clock)) t).1 =
      .ok (entities (t.matching .confirmed)) := rfl

/-- A reading finds exactly the entities that the table holds. -/
theorem get_eq_ok_iff (hKeyed : t.IsKeyed) {clock : StateM RecordTable Time} :
    (runOn (get (RecordTable.system Cell.whole clock) link) t).1 = .ok entity ↔
      t.Holds entity ∧ entity.link = link := by
  rw [fst_runOn_get]
  constructor
  · intro hGet
    cases hCompany : firstOr link.companyId (t.matching (companyFilter link)) with
    | error e =>
      rw [hCompany] at hGet
      cases hGet
    | ok company =>
      cases hInvoice : firstOr link.companyId (t.matching (invoiceFilter link)) with
      | error e =>
        rw [hCompany, hInvoice] at hGet
        cases hGet
      | ok invoice =>
        rw [hCompany, hInvoice] at hGet
        obtain rfl := Except.ok.inj hGet
        obtain ⟨hKeepsC, hIdC, hKindC⟩ := (firstOr_company_iff hKeyed).1 hCompany
        obtain ⟨hKeepsI, hIdI, hKindI, hParent⟩ := (firstOr_invoice_iff hKeyed).1 hInvoice
        refine ⟨⟨hKeepsC, hKeepsI, hKindC, hKindI, hIdC ▸ hParent⟩, ?_⟩
        rw [BillingEntity.link, hIdC, hIdI]
  · rintro ⟨hHolds, rfl⟩
    rw [firstOr_company_of_holds hKeyed hHolds, firstOr_invoice_of_holds hKeyed hHolds]
    rfl

theorem mem_confirmed (hKeyed : t.IsKeyed) : r ∈ t.matching .confirmed ↔ t.Keeps r := by
  rw [RecordTable.mem_matching hKeyed]
  simp [RecordTable.Keeps, SearchFilter.accepts, SearchFilter.confirmed, MarkerFilter.accepts]

/-- The table holds the listed entities: those with the first confirmed invoice record that belongs
to their company. -/
theorem mem_list_iff (hKeyed : t.IsKeyed) :
    entity ∈ entities (t.matching .confirmed) ↔ t.Holds entity ∧
      ∀ invoice, t.Holds ⟨entity.company, invoice⟩ → entity.invoice.id ≤ invoice.id := by
  rw [mem_entities_iff (RecordTable.ascending_matching hKeyed _)]
  simp only [mem_confirmed hKeyed]
  constructor
  · rintro ⟨⟨hCompany, hInvoice, hPair⟩, hLeast⟩
    exact ⟨⟨hCompany, hInvoice, hPair.company_kind, hPair.invoice_kind, hPair.parent⟩,
      fun invoice h => hLeast invoice h.invoice ⟨h.company_kind, h.invoice_kind, h.parent⟩⟩
  · rintro ⟨h, hLeast⟩
    exact ⟨⟨h.company, h.invoice, h.company_kind, h.invoice_kind, h.parent⟩,
      fun invoice hInvoice hPair => hLeast invoice
        ⟨h.company, hInvoice, hPair.company_kind, hPair.invoice_kind, hPair.parent⟩⟩

/-- The records of what is listed are in the table and confirmed. -/
theorem keeps_of_mem_list (hKeyed : t.IsKeyed)
    (hMem : entity ∈ entities (t.matching .confirmed)) :
    t.Keeps entity.company ∧ t.Keeps entity.invoice := by
  obtain ⟨hHolds, -⟩ := (mem_list_iff hKeyed).1 hMem
  exact ⟨hHolds.company, hHolds.invoice⟩

end BillingDirectory

end Tenancy
