import Tenancy.Proofs.Billing.Stages

/-!
# The marker protocol

Creations and sweeps do not get in each other's way, whatever order their calls come in, as long as
every creation clears its markers within the grace period.  What holds between any two calls
(`SharedTable.IsSound`) is that each process is at a stage of its own and that no two of them have
created the same record.

* `SharedTable.IsSound.move`: it is preserved, while the table evolves.
* `SharedTable.Returns`: what readings return, or have returned.
* `marker_protocol_safe`: a pair that has been confirmed is read ever after, and a record that has
  not been confirmed never.
-/

namespace Tenancy

open BillingDirectory RecordTable

namespace SharedTable

variable {config : ScavengerConfig} {s s' : SharedTable} {now : Time}

/-! ## The invariant -/

/-- What holds between any two calls. -/
structure IsSound (config : ScavengerConfig) (s : SharedTable) : Prop where
  keyed : s.table.IsKeyed
  stage : ∀ (i : Nat) (p : Process), s.processes[i]? = some p → p.Stage config s.table s.clock
  apart : ∀ (i j : Nat) (p q : Process), i ≠ j → s.processes[i]? = some p →
    s.processes[j]? = some q → ∀ r ∈ p.created, ¬ q.Owns r.id

structure Succeeds (config : ScavengerConfig) (s s' : SharedTable) : Prop where
  sound : s'.IsSound config
  evolves : ∃ own, s.table.Evolves config.gracePeriodSecs s'.clock own s'.table

theorem getElem?_start {p q : Process} {i : Nat} (hGet : (s.start p).processes[i]? = some q) :
    s.processes[i]? = some q ∨ q = p := by
  rw [start, List.getElem?_append] at hGet
  split at hGet
  · exact .inl hGet
  · exact .inr (List.mem_singleton.1 (List.mem_of_getElem? hGet))

/-- A process starts without records. -/
theorem IsSound.start (h : s.IsSound config) (hClock : s.clock ≤ now) {p : Process}
    (hStage : p.Stage config s.table now) (hCreated : p.created = []) :
    Succeeds config s { s.start p with clock := now } := by
  have hQuiet : s.table.Evolves config.gracePeriodSecs now (fun _ => False) s.table :=
    (Agrees.mk rfl rfl).evolves h.keyed
  refine ⟨⟨h.keyed, fun i q hGet => ?_, fun i j q q' hNe hGet hGet' r hMem => ?_⟩, _, hQuiet⟩
  · rcases getElem?_start hGet with hOld | rfl
    · exact (h.stage i q hOld).evolves h.keyed hQuiet hClock fun _ _ => id
    · exact hStage
  · rcases getElem?_start hGet with hOld | rfl
    · rcases getElem?_start hGet' with hOld' | rfl
      · exact h.apart i j q q' hNe hOld hOld' r hMem
      · rintro ⟨x, hNone, -⟩
        exact absurd (hCreated ▸ hNone) List.not_mem_nil
    · exact absurd (hCreated ▸ hMem) List.not_mem_nil

theorem getElem?_set {ps : List Process} {p q : Process} {i j : Nat}
    (hGet : (ps.set i p)[j]? = some q) : i = j ∧ q = p ∨ i ≠ j ∧ ps[j]? = some q := by
  rw [List.getElem?_set] at hGet
  split at hGet
  · rename_i hEq
    split at hGet
    · exact .inl ⟨hEq, (Option.some.inj hGet).symm⟩
    · cases hGet
  · rename_i hNe
    exact .inr ⟨hNe, hGet⟩

/-- A process makes its next call: the others stay at their stages, because none of them has created
a record that the call may confirm. -/
theorem IsSound.call (h : s.IsSound config) {i : Nat} {fault : Option BillingError}
    (hTicks : s.Ticks now) (hTimely : s.processes[i]?.all (·.isTimely config now) = true) :
    Succeeds config s (s.call i now fault) := by
  rw [SharedTable.call]
  cases hAt : s.processes[i]? with
  | none => exact ⟨h, fun _ => False, (Agrees.mk rfl rfl).evolves h.keyed⟩
  | some p =>
    rw [hAt] at hTimely
    have hNext : p.Advances config now s.table (p.step now fault s.table) :=
      (h.stage i p hAt).step h.keyed hTicks.2 hTicks.1 hTimely
    dsimp only
    generalize p.step now fault s.table = next at hNext ⊢
    have hOther : ∀ j q, i ≠ j → s.processes[j]? = some q → ∀ r ∈ q.created,
        ¬ next.1.Owns r.id := by
      rintro j q hNe hOld r hMem ⟨x, hCreated, hId⟩
      rcases hNext.created x hCreated with hOwn | hNew
      · exact h.apart j i q p hNe.symm hOld hAt r hMem ⟨x, hOwn, hId⟩
      · have hGiven := (h.stage j q hOld).created_given h.keyed r hMem
        omega
    refine ⟨⟨hNext.evolves.isKeyed h.keyed, fun j q hGet => ?_,
      fun j k q q' hNe hGet hGet' r hMem => ?_⟩, _, hNext.evolves⟩
    · rcases getElem?_set hGet with ⟨-, rfl⟩ | ⟨hNe, hOld⟩
      · exact hNext.stage
      · exact (h.stage j q hOld).evolves h.keyed hNext.evolves hTicks.1
          (h.apart j i q p hNe.symm hOld hAt)
    · rcases getElem?_set hGet with ⟨rfl, rfl⟩ | ⟨hNe', hOld⟩
      · rcases getElem?_set hGet' with ⟨rfl, rfl⟩ | ⟨hNe', hOld'⟩
        · exact absurd rfl hNe
        · rintro ⟨x, hTheirs, hId⟩
          exact hOther k q' hNe' hOld' x hTheirs ⟨r, hMem, hId.symm⟩
      · rcases getElem?_set hGet' with ⟨rfl, rfl⟩ | ⟨-, hOld'⟩
        · exact hOther j q hNe' hOld r hMem
        · exact h.apart j k q q' hNe hOld hOld' r hMem

/-- The invariant is preserved by every move. -/
theorem IsSound.move (h : s.IsSound config) {m : Move} (hPermits : s.Permits config m) :
    Succeeds config s (s.move config m) := by
  cases m with
  | create marker account =>
    have hMarker := isCleared_of_length hPermits
    have hStage : (Process.creation (.start marker account)).Stage config s.table s.clock := by
      rw [Attempt.start, create_eq]
      exact Attempt.Stage.company hMarker
    exact h.start (Time.le_refl _) hStage rfl
  | sweep began =>
    refine h.start hPermits.1 ?_ rfl
    rw [Scavenger.sweepAt_eq]
    cases hCutoff : config.cutoff? began with
    | none => exact SweepStage.done _
    | some cutoff => exact SweepStage.searching (Time.le_refl began) hPermits.2 hCutoff
  | get link =>
    refine h.start (Time.le_refl _) ?_ rfl
    rw [get_eq]
    exact ReadingStage.findingCompany
  | list =>
    refine h.start (Time.le_refl _) ?_ rfl
    rw [list_eq]
    exact ListingStage.searching
  | call i now fault => exact h.call hPermits.1 hPermits.2
  | order failures =>
    have hAgrees : s.table.Agrees { s.table with failures := failures } := ⟨rfl, rfl⟩
    have hQuiet : s.table.Evolves config.gracePeriodSecs s.clock (fun _ => False) _ :=
      hAgrees.evolves h.keyed
    refine ⟨⟨hQuiet.isKeyed h.keyed, fun i p hGet => ?_, h.apart⟩, _, hQuiet⟩
    exact (h.stage i p hGet).evolves h.keyed hQuiet (Time.le_refl _) fun _ _ => id

/-! ## Runs -/

theorem run_append (config : ScavengerConfig) (moves more : List Move) (s : SharedTable) :
    s.run config (moves ++ more) = (s.run config moves).run config more :=
  List.foldl_append ..

theorem Permitted.append_iff {moves more : List Move} :
    s.Permitted config (moves ++ more) ↔
      s.Permitted config moves ∧ (s.run config moves).Permitted config more := by
  induction moves generalizing s with
  | nil => exact ⟨fun h => ⟨trivial, h⟩, fun h => h.2⟩
  | cons m moves ih =>
    change _ ∧ (s.move config m).Permitted config (moves ++ more) ↔ (_ ∧ _) ∧ _
    rw [ih, and_assoc]
    rfl

theorem IsSound.run (h : s.IsSound config) {moves : List Move}
    (hPermitted : s.Permitted config moves) : (s.run config moves).IsSound config := by
  induction moves generalizing s with
  | nil => exact h
  | cons m moves ih => exact ih (h.move hPermitted.1).sound hPermitted.2

/-- A pair that has been confirmed stays in the table. -/
theorem IsSound.holds_run (h : s.IsSound config) {moves : List Move}
    (hPermitted : s.Permitted config moves) {entity : BillingEntity}
    (hHolds : s.table.Holds entity) : (s.run config moves).table.Holds entity := by
  induction moves generalizing s with
  | nil => exact hHolds
  | cons m moves ih =>
    obtain ⟨hSound, own, hEvolves⟩ := h.move hPermitted.1
    exact ih hSound hPermitted.2 (hHolds.evolves h.keyed hEvolves)

/-! ## Readings that begin later -/

/-- Where a reading can be that began when the table held the entity, as long as its calls have not
been made to fail. -/
inductive LateStage (entity : BillingEntity) :
    RecordProgram (Except BillingError BillingEntity) → Prop
  | findingCompany : LateStage entity (findCompany entity.link)
  | findingInvoice : LateStage entity (findInvoice entity.link entity.company)
  | found : LateStage entity (.done (.ok entity))

variable {entity : BillingEntity}

theorem LateStage.step {program : RecordProgram (Except BillingError BillingEntity)}
    (h : LateStage entity program) {t : RecordTable} (hKeyed : t.IsKeyed)
    (hHolds : t.Holds entity) : LateStage entity (program.step now none t).1 := by
  cases h with
  | findingCompany =>
    change LateStage entity (afterCompany entity.link
      (firstOr entity.link.companyId (t.matching (companyFilter entity.link))))
    rw [firstOr_company_of_holds hKeyed hHolds]
    exact .findingInvoice
  | findingInvoice =>
    change LateStage entity (.done
      ((firstOr entity.link.companyId (t.matching (invoiceFilter entity.link))).map fun invoice =>
        ⟨entity.company, invoice⟩))
    rw [firstOr_invoice_of_holds hKeyed hHolds]
    exact .found
  | found => exact .found

/-- If the process of the number reads the link of the entity, it is about to find it. -/
def ReadsLate (entity : BillingEntity) (j : Nat) (s : SharedTable) : Prop :=
  ∀ program, s.processes[j]? = some (.reading entity.link program) → LateStage entity program

theorem ReadsLate.start {j : Nat} (hLate : ReadsLate entity j s) {p : Process}
    (hStart : ∀ program, p = .reading entity.link program → LateStage entity program) :
    ReadsLate entity j (s.start p) := by
  intro program hGet
  rcases getElem?_start hGet with hOld | hNew
  · exact hLate program hOld
  · exact hStart program hNew.symm

theorem ReadsLate.move {j : Nat} (hLate : ReadsLate entity j s) (h : s.IsSound config)
    (hHolds : s.table.Holds entity) {m : Move}
    (hServed : ∀ now e, m ≠ .call j now (some e)) : ReadsLate entity j (s.move config m) := by
  cases m with
  | create marker account => exact hLate.start fun program hEq => by cases hEq
  | sweep began => exact hLate.start fun program hEq => by cases hEq
  | get link =>
    refine hLate.start fun program hEq => ?_
    rw [get_eq] at hEq
    cases hEq
    exact .findingCompany
  | list => exact hLate.start fun program hEq => by cases hEq
  | call i now fault =>
    intro program hGet
    rw [SharedTable.move, SharedTable.call] at hGet
    cases hAt : s.processes[i]? with
    | none =>
      rw [hAt] at hGet
      exact hLate program hGet
    | some p =>
      rw [hAt] at hGet
      rcases getElem?_set hGet with ⟨rfl, hStep⟩ | ⟨-, hOld⟩
      · cases p with
        | reading link before =>
          obtain ⟨rfl, rfl⟩ := Process.reading.inj hStep
          cases fault with
          | none => exact (hLate before hAt).step h.keyed hHolds
          | some e => exact absurd rfl (hServed now e)
        | creation a => cases hStep
        | sweep before => cases hStep
        | listing before => cases hStep
      · exact hLate program hOld
  | order failures => exact hLate

theorem ReadsLate.run {j : Nat} (hLate : ReadsLate entity j s) (h : s.IsSound config)
    (hHolds : s.table.Holds entity) {moves : List Move} (hPermitted : s.Permitted config moves)
    (hServed : ∀ now e, .call j now (some e) ∉ moves) :
    ReadsLate entity j (s.run config moves) := by
  induction moves generalizing s with
  | nil => exact hLate
  | cons m moves ih =>
    obtain ⟨hSound, own, hEvolves⟩ := h.move hPermitted.1
    refine ih (hLate.move h hHolds ?_) hSound (hHolds.evolves h.keyed hEvolves) hPermitted.2 ?_
    · exact fun now e hEq => hServed now e (hEq ▸ List.mem_cons_self)
    · exact fun now e hMem => hServed now e (List.mem_cons_of_mem _ hMem)

/-! ## What readings return -/

/-- The record is in what a reading returns at this moment, or in what one has returned that was
interleaved with others. -/
inductive Returns (s : SharedTable) (r : PartnerRecord) : Prop
  | get (now : Time) (link : RecordLink) (entity : BillingEntity)
      (hGet : (runOn (BillingDirectory.get (RecordTable.system Cell.whole (pure now)) link)
        s.table).1 = .ok entity)
      (hMem : r = entity.company ∨ r = entity.invoice)
  | list (now : Time) (listed : List BillingEntity) (entity : BillingEntity)
      (hList : (runOn (BillingDirectory.list (RecordTable.system Cell.whole (pure now)))
        s.table).1 = .ok listed)
      (hEntity : entity ∈ listed) (hMem : r = entity.company ∨ r = entity.invoice)
  | reading (i : Nat) (link : RecordLink) (entity : BillingEntity)
      (hDone : s.processes[i]? = some (.reading link (.done (.ok entity))))
      (hMem : r = entity.company ∨ r = entity.invoice)
  | listing (i : Nat) (listed : List BillingEntity) (entity : BillingEntity)
      (hDone : s.processes[i]? = some (.listing (.done (.ok listed))))
      (hEntity : entity ∈ listed) (hMem : r = entity.company ∨ r = entity.invoice)

theorem IsSound.keeps (h : s.IsSound config) {r : PartnerRecord} (hReturns : s.Returns r) :
    s.table.Keeps r := by
  cases hReturns with
  | get now link entity hGet hMem =>
    obtain ⟨hHolds, -⟩ := (get_eq_ok_iff h.keyed).1 hGet
    rcases hMem with rfl | rfl
    · exact hHolds.company
    · exact hHolds.invoice
  | list now listed entity hList hEntity hMem =>
    obtain rfl := Except.ok.inj hList
    obtain ⟨hCompany, hInvoice⟩ := keeps_of_mem_list h.keyed hEntity
    rcases hMem with rfl | rfl
    · exact hCompany
    · exact hInvoice
  | reading i link entity hDone hMem =>
    cases h.stage i _ hDone with
    | found hHolds =>
      rcases hMem with rfl | rfl
      · exact hHolds.company
      · exact hHolds.invoice
  | listing i listed entity hDone hEntity hMem =>
    cases h.stage i _ hDone with
    | found hKeeps =>
      rcases hMem with rfl | rfl
      · exact (hKeeps entity hEntity).1
      · exact (hKeeps entity hEntity).2

theorem isSound_of_idle (hKeyed : s.table.IsKeyed) (hIdle : s.processes = []) :
    s.IsSound config where
  keyed := hKeyed
  stage i p hGet := by
    rw [hIdle] at hGet
    cases hGet
  apart i j p q _ hGet := by
    rw [hIdle] at hGet
    cases hGet

end SharedTable

/-- **The marker protocol is safe.**  Once a creation has returned a link, what it has created is
the entity of that link and stays so: readings of the link find it, those at one moment as well as
those that begin later and are interleaved with others.  No reading ever returns a record of a
creation that has not been confirmed. -/
theorem marker_protocol_safe (config : ScavengerConfig) (s : SharedTable)
    (hKeyed : s.table.IsKeyed) (hIdle : s.processes = []) (moves more : List Move)
    (hPermitted : s.Permitted config (moves ++ more)) :
    (∀ (i : Nat) (a : Attempt) (link : RecordLink),
      (s.run config moves).processes[i]? = some (.creation a) → a.program = .done (.ok link) →
      ∃ entity : BillingEntity, entity.link = link ∧
        a.created.map RecordPatch.clearMarker.apply = [entity.company, entity.invoice] ∧
        (s.run config (moves ++ more)).table.Holds entity ∧
        (∀ now, (runOn (BillingDirectory.get (RecordTable.system Cell.whole (pure now)) link)
          (s.run config (moves ++ more)).table).1 = .ok entity) ∧
        ∀ j result, (s.run config moves).processes.length ≤ j →
          (∀ now e, .call j now (some e) ∉ more) →
          (s.run config (moves ++ more)).processes[j]? = some (.reading link (.done result)) →
          result = .ok entity) ∧
    ∀ (i : Nat) (a : Attempt), (s.run config moves).processes[i]? = some (.creation a) →
      a.confirmed = false →
      ∀ r ∈ a.created, ∀ r', (s.run config moves).Returns r' → r'.id ≠ r.id := by
  obtain ⟨hFirst, hMore⟩ := SharedTable.Permitted.append_iff.1 hPermitted
  have hSound := (SharedTable.isSound_of_idle hKeyed hIdle).run hFirst
  refine ⟨fun i a link hGet hDone => ?_, fun i a hGet hUnconfirmed r hMem r' hReturns => ?_⟩
  · have hStage : a.Stage _ _ := hSound.stage i _ hGet
    obtain ⟨entity, rfl, hCreated, hHolds⟩ := hStage.holds hDone
    rw [SharedTable.run_append]
    have hLater := hSound.holds_run hMore hHolds
    have hKeyedLater := (hSound.run hMore).keyed
    refine ⟨entity, rfl, hCreated, hLater, fun now => ?_, fun j result hLe hServed hRead => ?_⟩
    · exact (get_eq_ok_iff hKeyedLater).2 ⟨hLater, rfl⟩
    · have hNone : SharedTable.ReadsLate entity j (s.run config moves) := fun program hHere => by
        rw [List.getElem?_eq_none hLe] at hHere
        cases hHere
      cases hNone.run hSound hHolds hMore hServed _ hRead
      rfl
  · have hStage : a.Stage _ _ := hSound.stage i _ hGet
    exact (hSound.keeps hReturns).not_isPending (hStage.isPending hUnconfirmed r hMem)

/-- A creation fails half-way.  Later another one makes its calls while a sweep has already
searched, and is confirmed before the sweep deletes. -/
def Move.overlap : List Move :=
  let account : BillingAccount := .new "acme" "Acme Corp" "billing@acme.example"
  [.create "abandoned-marker-no-0001" account, .call 0 ⟨0, 0⟩ none,
    .call 0 ⟨1, 0⟩ (some (.unavailable "no answer")),
    .create "completed-marker-no-0002" account, .call 1 ⟨100, 0⟩ none,
    .sweep ⟨101, 0⟩, .call 2 ⟨102, 0⟩ none, .call 1 ⟨103, 0⟩ none, .call 1 ⟨104, 0⟩ none]

/-- The sweep deletes between the two calls of a reading. -/
def Move.afterwards : List Move :=
  [.get ⟨2, 3⟩, .call 3 ⟨105, 0⟩ none, .call 2 ⟨106, 0⟩ none, .call 3 ⟨107, 0⟩ none]

def SharedTable.vacant : SharedTable := { table := {}, clock := ⟨0, 0⟩ }

def ScavengerConfig.brief : ScavengerConfig := { gracePeriodSecs := 60 }

theorem marker_protocol_safe_overlap :
    SharedTable.vacant.table.IsKeyed ∧ SharedTable.vacant.processes = [] ∧
    SharedTable.vacant.Permitted .brief (Move.overlap ++ Move.afterwards) ∧
    (SharedTable.vacant.run .brief (Move.overlap ++ Move.afterwards)).table.records.keys = [2, 3] ∧
    (∃ entity : BillingEntity, entity.link = ⟨2, 3⟩ ∧
      (SharedTable.vacant.run .brief (Move.overlap ++ Move.afterwards)).table.Holds entity) ∧
    ∀ r, (SharedTable.vacant.run .brief Move.overlap).Returns r → r.id ≠ 1 := by
  have hKeyed : SharedTable.vacant.table.IsKeyed := fun _ _ hGet => by cases hGet
  have hPermitted :
      SharedTable.vacant.Permitted .brief (Move.overlap ++ Move.afterwards) := by decide +kernel
  have hSafe := marker_protocol_safe .brief .vacant hKeyed rfl Move.overlap Move.afterwards
    hPermitted
  have hEnded : ∃ a, (SharedTable.vacant.run .brief Move.overlap).processes[1]? =
      some (.creation a) ∧ a.program = .done (.ok ⟨2, 3⟩) := ⟨_, rfl, rfl⟩
  have hFailed : ∃ a, (SharedTable.vacant.run .brief Move.overlap).processes[0]? =
      some (.creation a) ∧ a.confirmed = false ∧ ∃ r, a.created = [r] ∧ r.id = 1 :=
    ⟨_, rfl, rfl, _, rfl, rfl⟩
  refine ⟨hKeyed, rfl, hPermitted, by decide +kernel, ?_, fun r hReturns => ?_⟩
  · obtain ⟨a, hGet, hDone⟩ := hEnded
    obtain ⟨entity, hLink, -, hHolds, -⟩ := hSafe.1 1 a ⟨2, 3⟩ hGet hDone
    exact ⟨entity, hLink, hHolds⟩
  · obtain ⟨a, hGet, hUnconfirmed, x, hCreated, hId⟩ := hFailed
    exact hId ▸ hSafe.2 0 a hGet hUnconfirmed x (hCreated ▸ List.mem_cons_self) r hReturns

end Tenancy
