import Tenancy.Proofs.Billing.Programs
import Tenancy.Proofs.Billing.TableRun

/-!
# Two ways of reading

A billing entity is read by its link, with two searches for single records, or found in the list of
all entities, which pairs the confirmed records in one pass.  There may be records of creations that
have failed, invoice records whose company is gone, and several invoice records of one company; both
ways show the same table all the same (`billing_readings_agree`).
-/

namespace Tenancy

namespace BillingDirectory

variable {t : RecordTable} {link : RecordLink} {entity : BillingEntity} {e : BillingError}
  {clock : StateM RecordTable Time}

/-- The link leads to two confirmed records that belong together. -/
structure LeadsTo (t : RecordTable) (link : RecordLink) (entity : BillingEntity) : Prop where
  company_stored : t.records.get? link.companyId = some entity.company
  company_kind : entity.company.kind = .company
  company_cleared : isCleared entity.company.marker = true
  invoice_stored : t.records.get? link.invoiceId = some entity.invoice
  invoice_kind : entity.invoice.kind = .invoice
  invoice_cleared : isCleared entity.invoice.marker = true
  parent : entity.invoice.parentId = some link.companyId

theorem leadsTo_iff (hKeyed : t.IsKeyed) :
    LeadsTo t link entity ↔ t.Holds entity ∧ entity.link = link := by
  constructor
  · intro h
    obtain ⟨hCompanyId, -⟩ := hKeyed _ _ h.company_stored
    obtain ⟨hInvoiceId, -⟩ := hKeyed _ _ h.invoice_stored
    have hCompany : t.Keeps entity.company := ⟨hCompanyId ▸ h.company_stored, h.company_cleared⟩
    have hInvoice : t.Keeps entity.invoice := ⟨hInvoiceId ▸ h.invoice_stored, h.invoice_cleared⟩
    refine ⟨⟨hCompany, hInvoice, h.company_kind, h.invoice_kind, hCompanyId ▸ h.parent⟩, ?_⟩
    rw [BillingEntity.link, hCompanyId, hInvoiceId]
  · rintro ⟨h, rfl⟩
    exact ⟨h.company.1, h.company_kind, h.company.2, h.invoice.1, h.invoice_kind, h.invoice.2,
      h.parent⟩

/-- A reading that fails says that there is no entity of the company. -/
theorem error_of_get (hGet : (runOn (get (RecordTable.system Cell.whole clock) link) t).1 =
    .error e) : e = .entityNotFound link.companyId := by
  have hFirst : ∀ records e, firstOr link.companyId records = .error e →
      e = .entityNotFound link.companyId := by
    intro records e hNone
    cases records with
    | nil => exact (Except.error.inj hNone).symm
    | cons r rest => cases hNone
  rw [fst_runOn_get] at hGet
  cases hCompany : firstOr link.companyId (t.matching (companyFilter link)) with
  | error e' =>
    rw [hCompany] at hGet
    exact Except.error.inj hGet ▸ hFirst _ _ hCompany
  | ok company =>
    cases hInvoice : firstOr link.companyId (t.matching (invoiceFilter link)) with
    | error e' =>
      rw [hCompany, hInvoice] at hGet
      exact Except.error.inj hGet ▸ hFirst _ _ hInvoice
    | ok invoice =>
      rw [hCompany, hInvoice] at hGet
      cases hGet

/-- The entity that is listed for a company. -/
theorem exists_listed (hKeyed : t.IsKeyed) (hHolds : t.Holds entity) :
    ∃ other ∈ entities (t.matching .confirmed), other.company = entity.company := by
  obtain ⟨first, hMem⟩ := exists_mem_entities (RecordTable.ascending_matching hKeyed _)
    ((mem_confirmed hKeyed).2 hHolds.company) ((mem_confirmed hKeyed).2 hHolds.invoice)
    ⟨hHolds.company_kind, hHolds.invoice_kind, hHolds.parent⟩
  exact ⟨_, hMem, rfl⟩

/-- A list of entities and what is read by links show a table alike. -/
structure ShowAlike (t : RecordTable) (listed : List BillingEntity)
    (read : RecordLink → Except BillingError BillingEntity) : Prop where
  ascending : listed.Pairwise (·.company.id < ·.company.id)
  /-- There is an entity for each confirmed company record with a confirmed invoice record. -/
  companies : ∀ company, (∃ entity ∈ listed, entity.company = company) ↔
    t.Keeps company ∧ ∃ invoice, t.Keeps invoice ∧ IsPair company invoice
  /-- It has the first of these invoice records. -/
  invoices : ∀ entity ∈ listed, t.Keeps entity.invoice ∧ IsPair entity.company entity.invoice ∧
    ∀ invoice, t.Keeps invoice → IsPair entity.company invoice → entity.invoice.id ≤ invoice.id
  read_listed : ∀ entity ∈ listed, read entity.link = .ok entity
  read_iff : ∀ link entity, read link = .ok entity ↔ LeadsTo t link entity
  read_error : ∀ link e, read link = .error e → e = .entityNotFound link.companyId
  /-- What can be read belongs to a company of which one entity is listed. -/
  listed_once : ∀ link entity, read link = .ok entity →
    (∃ other ∈ listed, other.company = entity.company) ∧
      (listed.map (·.company.id)).count link.companyId = 1
  cleared : ∀ entity, (entity ∈ listed ∨ ∃ link, read link = .ok entity) →
    isCleared entity.company.marker = true ∧ isCleared entity.invoice.marker = true

theorem showAlike (hKeyed : t.IsKeyed) (clock : StateM RecordTable Time) :
    ShowAlike t (entities (t.matching .confirmed)) fun link =>
      (runOn (get (RecordTable.system Cell.whole clock) link) t).1 where
  ascending := ascending_entities (RecordTable.ascending_matching hKeyed .confirmed)
  companies company := by
    constructor
    · rintro ⟨entity, hMem, rfl⟩
      obtain ⟨h, -⟩ := (mem_list_iff hKeyed).1 hMem
      exact ⟨h.company, entity.invoice, h.invoice, h.company_kind, h.invoice_kind, h.parent⟩
    · rintro ⟨hCompany, invoice, hInvoice, hPair⟩
      have hHolds : t.Holds ⟨company, invoice⟩ :=
        ⟨hCompany, hInvoice, hPair.company_kind, hPair.invoice_kind, hPair.parent⟩
      exact exists_listed hKeyed hHolds
  invoices entity hMem := by
    obtain ⟨h, hLeast⟩ := (mem_list_iff hKeyed).1 hMem
    refine ⟨h.invoice, ⟨h.company_kind, h.invoice_kind, h.parent⟩, ?_⟩
    intro invoice hInvoice hPair
    exact hLeast invoice ⟨h.company, hInvoice, h.company_kind, hPair.invoice_kind, hPair.parent⟩
  read_listed entity hMem := by
    obtain ⟨hHolds, -⟩ := (mem_list_iff hKeyed).1 hMem
    exact (get_eq_ok_iff hKeyed).2 ⟨hHolds, rfl⟩
  read_iff link entity := by
    rw [get_eq_ok_iff hKeyed, leadsTo_iff hKeyed]
  read_error link e hGet := error_of_get hGet
  listed_once link entity hGet := by
    have hAscending := ascending_entities (RecordTable.ascending_matching hKeyed .confirmed)
    obtain ⟨hHolds, rfl⟩ := (get_eq_ok_iff hKeyed).1 hGet
    obtain ⟨other, hMem, hCompany⟩ := exists_listed hKeyed hHolds
    refine ⟨⟨other, hMem, hCompany⟩, List.count_eq_one_of_mem ?_ ?_⟩
    · exact List.pairwise_map.2 (hAscending.imp Int.ne_of_lt)
    · exact List.mem_map.2 ⟨other, hMem, congrArg PartnerRecord.id hCompany⟩
  cleared entity hRead := by
    rcases hRead with hMem | ⟨link, hGet⟩
    · obtain ⟨hCompany, hInvoice⟩ := keeps_of_mem_list hKeyed hMem
      exact ⟨hCompany.2, hInvoice.2⟩
    · obtain ⟨hHolds, -⟩ := (get_eq_ok_iff hKeyed).1 hGet
      exact ⟨hHolds.company.2, hHolds.invoice.2⟩

end BillingDirectory

/-- **The list and the readings by link agree** in every table that can be reached. -/
theorem billing_readings_agree (calls : List TableCall) (clock : StateM RecordTable Time) :
    let t := TableCall.reached calls
    let system := RecordTable.system Cell.whole clock
    ∃ listed, (runOn (BillingDirectory.list system) t).1 = .ok listed ∧
      BillingDirectory.ShowAlike t listed fun link =>
        (runOn (BillingDirectory.get system link) t).1 :=
  ⟨_, BillingDirectory.fst_runOn_list clock _,
    BillingDirectory.showAlike (TableCall.isOrderly_reached calls).keyed clock⟩

end Tenancy
