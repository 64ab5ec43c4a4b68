import Tenancy.Billing.Directory
import Tenancy.Proofs.SortedMap

/-!
# Pairing records

The entities that records form, if the records stand by ascending identifier: one for every company
record to which an invoice record belongs, with the first of these.

* `BillingDirectory.mem_entities_iff`, `BillingDirectory.ascending_entities`: which entities there
  are, and in which order.
* `BillingDirectory.entities_append_pair`: a company record with a new identifier and an invoice
  record of its own form one more entity.
-/

namespace Tenancy

structure IsPair (company invoice : PartnerRecord) : Prop where
  company_kind : company.kind = .company
  invoice_kind : invoice.kind = .invoice
  parent : invoice.parentId = some company.id

/-- In a list in which a number ascends, the first element with a property is the least one. -/
theorem find?_eq_some_iff_least {α : Type} (number : α → Int) {p : α → Bool} {l : List α} {a : α}
    (hAscending : l.Pairwise (number · < number ·)) :
    l.find? p = some a ↔ a ∈ l ∧ p a = true ∧ ∀ b ∈ l, p b = true → number a ≤ number b := by
  induction l with
  | nil => simp
  | cons head rest ih =>
    obtain ⟨hHead, hRest⟩ := List.pairwise_cons.1 hAscending
    rw [List.find?_cons]
    cases hFits : p head with
    | true =>
      constructor
      · intro hSome
        obtain rfl := Option.some.inj hSome
        refine ⟨List.mem_cons_self, hFits, fun b hMem _ => ?_⟩
        rcases List.mem_cons.1 hMem with rfl | hLater
        · exact Int.le_refl _
        · exact Int.le_of_lt (hHead b hLater)
      · rintro ⟨hMem, -, hLeast⟩
        rcases List.mem_cons.1 hMem with rfl | hLater
        · rfl
        · have hBelow := hLeast head List.mem_cons_self hFits
          have hAbove := hHead a hLater
          omega
    | false =>
      have hNot : ∀ b, b = head → p b = true → False := by
        rintro b rfl hTrue
        rw [hFits] at hTrue
        cases hTrue
      simp only [ih hRest, List.mem_cons]
      constructor
      · rintro ⟨hMem, hTrue, hLeast⟩
        exact ⟨.inr hMem, hTrue, fun b hb hTrue => hb.elim (fun h => (hNot b h hTrue).elim)
          fun h => hLeast b h hTrue⟩
      · rintro ⟨hMem, hTrue, hLeast⟩
        exact ⟨hMem.resolve_left fun h => hNot a h hTrue, hTrue, fun b hb => hLeast b (.inr hb)⟩

namespace BillingDirectory

variable {found : SortedMap Int PartnerRecord} {paired : SortedMap Int BillingEntity}
  {records : List PartnerRecord} {r company invoice : PartnerRecord} {entity : BillingEntity}
  {id : Int}

/-! ## Look-ups -/

theorem get?_companies (hAscending : records.Pairwise (·.id < ·.id)) :
    (companies records).get? id = some r ↔ r ∈ records ∧ r.kind = .company ∧ r.id = id := by
  have hListed : ∀ s, (id, s) ∈ (records.filter (·.kind = .company)).map (fun r => (r.id, r)) ↔
      s ∈ records ∧ s.kind = .company ∧ s.id = id := by
    simp [and_assoc]
  constructor
  · exact fun hGet => (hListed r).1 (SortedMap.mem_of_get?_ofList hGet)
  · intro hFound
    refine SortedMap.get?_ofList_of_unique ((hListed r).2 hFound) fun s hMem => ?_
    obtain ⟨hs, -, hId⟩ := (hListed s).1 hMem
    exact List.inj_on_of_nodup_map (List.pairwise_map.2 (hAscending.imp Int.ne_of_lt)) hs hFound.1
      (hId.trans hFound.2.2.symm)

theorem get?_pair (found : SortedMap Int PartnerRecord) (paired : SortedMap Int BillingEntity)
    (invoice : PartnerRecord) (id : Int) :
    (pair found paired invoice).get? id = (paired.get? id).or
      (if invoice.parentId = some id then (found.get? id).map (⟨·, invoice⟩) else none) := by
  rw [pair]
  cases invoice.parentId with
  | none => simp
  | some parent =>
    dsimp only
    cases hContains : paired.contains parent with
    | true =>
      obtain ⟨entity, hPaired⟩ := SortedMap.contains_iff.1 hContains
      by_cases hId : parent = id
      · subst hId
        simp [hPaired]
      · simp [hId]
    | false =>
      have hPaired := SortedMap.contains_eq_false_iff.1 hContains
      by_cases hId : parent = id
      · subst hId
        cases hFound : found.get? parent <;> simp [hPaired]
      · have hNe : id ≠ parent := fun h => hId h.symm
        cases hFound : found.get? parent <;> simp [hId, SortedMap.get?_insert_of_ne hNe]

/-- An entity is found before some invoices, or with the first of them that belongs to it. -/
theorem get?_foldl_pair (found : SortedMap Int PartnerRecord) (invoices : List PartnerRecord)
    (paired : SortedMap Int BillingEntity) (id : Int) :
    (invoices.foldl (pair found) paired).get? id = (paired.get? id).or
      ((found.get? id).bind fun company =>
        (invoices.find? (·.parentId = some id)).map (⟨company, ·⟩)) := by
  induction invoices generalizing paired with
  | nil => cases found.get? id <;> simp
  | cons invoice rest ih =>
    rw [List.foldl_cons, ih, get?_pair, Option.or_assoc, List.find?_cons]
    by_cases hParent : invoice.parentId = some id
    · cases found.get? id <;> simp [hParent]
    · simp [hParent]

/-- The entities that records form, by the identifiers of their companies. -/
def pairs (records : List PartnerRecord) : SortedMap Int BillingEntity :=
  (records.filter (·.kind = .invoice)).foldl (pair (companies records)) ∅

theorem entities_eq (records : List PartnerRecord) : entities records = (pairs records).values :=
  rfl

theorem get?_pairs (records : List PartnerRecord) (id : Int) :
    (pairs records).get? id = ((companies records).get? id).bind fun company =>
      ((records.filter (·.kind = .invoice)).find? (·.parentId = some id)).map (⟨company, ·⟩) := by
  rw [pairs, get?_foldl_pair, SortedMap.get?_empty, Option.none_or]

/-! ## Entities -/

theorem get?_pairs_eq_some_iff (hAscending : records.Pairwise (·.id < ·.id)) :
    (pairs records).get? id = some entity ↔
      (entity.company ∈ records ∧ entity.invoice ∈ records ∧ entity.company.id = id ∧
        IsPair entity.company entity.invoice) ∧
      ∀ invoice ∈ records, IsPair entity.company invoice → entity.invoice.id ≤ invoice.id := by
  obtain ⟨company, invoice⟩ := entity
  rw [get?_pairs, Option.bind_eq_some_iff]
  have hFirst : ∀ i, (records.filter (·.kind = .invoice)).find? (·.parentId = some id) = some i ↔
      i ∈ records.filter (·.kind = .invoice) ∧ decide (i.parentId = some id) = true ∧
        ∀ j ∈ records.filter (·.kind = .invoice), decide (j.parentId = some id) = true →
          i.id ≤ j.id :=
    fun i => find?_eq_some_iff_least PartnerRecord.id (hAscending.filter _)
  simp only [Option.map_eq_some_iff, hFirst, get?_companies hAscending, List.mem_filter,
    decide_eq_true_eq]
  constructor
  · rintro ⟨c, ⟨hCompany, hKind, hId⟩, i, ⟨⟨hInvoice, hInvoiceKind⟩, hParent, hLeast⟩, hEntity⟩
    obtain ⟨rfl, rfl⟩ := BillingEntity.mk.inj hEntity
    subst hId
    exact ⟨⟨hCompany, hInvoice, rfl, hKind, hInvoiceKind, hParent⟩, fun j hj hPair =>
      hLeast j ⟨hj, hPair.invoice_kind⟩ hPair.parent⟩
  · rintro ⟨⟨hCompany, hInvoice, rfl, hPair⟩, hLeast⟩
    exact ⟨company, ⟨hCompany, hPair.company_kind, rfl⟩, invoice,
      ⟨⟨hInvoice, hPair.invoice_kind⟩, hPair.parent, fun j hj hParent =>
        hLeast j hj.1 ⟨hPair.company_kind, hj.2, hParent⟩⟩, rfl⟩

/-- The entities are the pairs of a company record with the first invoice record that belongs to
it. -/
theorem mem_entities_iff (hAscending : records.Pairwise (·.id < ·.id)) :
    entity ∈ entities records ↔
      (entity.company ∈ records ∧ entity.invoice ∈ records ∧
        IsPair entity.company entity.invoice) ∧
      ∀ invoice ∈ records, IsPair entity.company invoice → entity.invoice.id ≤ invoice.id := by
  rw [entities_eq, SortedMap.mem_values]
  simp only [get?_pairs_eq_some_iff hAscending]
  constructor
  · rintro ⟨id, ⟨hCompany, hInvoice, -, hPair⟩, hLeast⟩
    exact ⟨⟨hCompany, hInvoice, hPair⟩, hLeast⟩
  · rintro ⟨⟨hCompany, hInvoice, hPair⟩, hLeast⟩
    exact ⟨entity.company.id, ⟨hCompany, hInvoice, rfl, hPair⟩, hLeast⟩

/-- A company record to which an invoice record belongs is that of an entity. -/
theorem exists_mem_entities (hAscending : records.Pairwise (·.id < ·.id))
    (hCompany : company ∈ records) (hInvoice : invoice ∈ records) (hPair : IsPair company invoice) :
    ∃ first, ⟨company, first⟩ ∈ entities records := by
  have hFound : (companies records).get? company.id = some company :=
    (get?_companies hAscending).2 ⟨hCompany, hPair.company_kind, rfl⟩
  have hSome : ((records.filter (·.kind = .invoice)).find? (·.parentId = some company.id)).isSome :=
    List.find?_isSome.2 ⟨invoice, by simp [hInvoice, hPair.invoice_kind], by simp [hPair.parent]⟩
  obtain ⟨first, hFirst⟩ := Option.isSome_iff_exists.1 hSome
  refine ⟨first, SortedMap.mem_values.2 ⟨company.id, ?_⟩⟩
  change (pairs records).get? company.id = _
  rw [get?_pairs, hFound, Option.bind_some, hFirst, Option.map_some]

theorem ascending_entities (hAscending : records.Pairwise (·.id < ·.id)) :
    (entities records).Pairwise (·.company.id < ·.company.id) := by
  refine List.pairwise_map.2 ((pairs records).sorted.imp_of_mem fun {a b} ha hb hBefore => ?_)
  obtain ⟨⟨-, -, hIdA, -⟩, -⟩ :=
    (get?_pairs_eq_some_iff hAscending).1 (SortedMap.get?_eq_some_iff.2 ha)
  obtain ⟨⟨-, -, hIdB, -⟩, -⟩ :=
    (get?_pairs_eq_some_iff hAscending).1 (SortedMap.get?_eq_some_iff.2 hb)
  rw [hIdA, hIdB]
  exact of_decide_eq_true hBefore

/-- A company record with a higher identifier than all others, to which no other record belongs, and
its invoice record form one more entity, which comes last. -/
theorem entities_append_pair (hAscending : (records ++ [company, invoice]).Pairwise (·.id < ·.id))
    (hPair : IsPair company invoice) (hFresh : ∀ r ∈ records, r.parentId ≠ some company.id) :
    entities (records ++ [company, invoice]) = entities records ++ [⟨company, invoice⟩] := by
  obtain ⟨hRecords, hNew, hAbove⟩ := List.pairwise_append.1 hAscending
  have hCompanies : companies (records ++ [company, invoice]) =
      (companies records).insert company.id company := by
    simp [companies, SortedMap.ofList, hPair.company_kind, hPair.invoice_kind]
  have hInvoices : (records ++ [company, invoice]).filter (·.kind = .invoice) =
      records.filter (·.kind = .invoice) ++ [invoice] := by
    simp [hPair.company_kind, hPair.invoice_kind]
  have hPairs : pairs (records ++ [company, invoice]) =
      (pairs records).insert company.id ⟨company, invoice⟩ := by
    refine SortedMap.ext_get? fun id => ?_
    rw [SortedMap.get?_insert, get?_pairs, get?_pairs, hCompanies, hInvoices,
      SortedMap.get?_insert, List.find?_append]
    split
    · rename_i hId
      have hNone : (records.filter (·.kind = .invoice)).find? (·.parentId = some id) = none :=
        List.find?_eq_none.2 fun r hMem => by
          simpa [hId] using hFresh r (List.mem_of_mem_filter hMem)
      rw [hNone]
      simp [hPair.parent, hId]
    · rename_i hId
      have hOther : company.id ≠ id := fun h => hId h.symm
      simp [hPair.parent, hOther]
  rw [entities_eq, entities_eq, hPairs]
  refine SortedMap.values_insert_of_last (fun id entity hGet => ?_) _
  obtain ⟨⟨hCompany, -, rfl, -⟩, -⟩ := (get?_pairs_eq_some_iff hRecords).1 hGet
  exact decide_eq_true (hAbove _ hCompany _ List.mem_cons_self)

end BillingDirectory

end Tenancy
