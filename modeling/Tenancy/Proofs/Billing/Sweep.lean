import Tenancy.Proofs.Billing.Programs
import Tenancy.Proofs.Billing.TableRun

/-!
# What a sweep removes

A sweep with nobody between its calls removes the marked records that were created before its cutoff
and no others, all of them or none.

* `Scavenger.runOn_sweepAt`, `Scavenger.sweepAt_outcome`: what a sweep reports and does.
* `Scavenger.Swept.later`: a sweep after another one leaves what it would have left alone.
-/

namespace Tenancy

/-- The record has a marker and was created before the cutoff. -/
def PartnerRecord.isOverdue (cutoff : Time) (r : PartnerRecord) : Bool :=
  r.isInflight && r.createdAt < cutoff

namespace RecordTable

variable {t u : RecordTable} {cutoff : Time} {id : Int}

def marked (t : RecordTable) : Nat := t.records.values.countP (·.isInflight)

def overdue (t : RecordTable) (cutoff : Time) : Nat :=
  t.records.values.countP (·.isOverdue cutoff)

def spared (t : RecordTable) (cutoff : Time) : SortedMap Int PartnerRecord :=
  t.records.filter fun _ r => !r.isOverdue cutoff

theorem overdue_eq_zero_iff :
    t.overdue cutoff = 0 ↔ ∀ id r, t.records.get? id = some r → r.isOverdue cutoff = false := by
  rw [overdue, List.countP_eq_zero]
  simp only [SortedMap.mem_values, Bool.not_eq_true]
  constructor
  · intro h id r hGet
    exact h r ⟨id, hGet⟩
  · rintro h r ⟨id, hGet⟩
    exact h id r hGet

theorem overdue_ne_zero_iff :
    t.overdue cutoff ≠ 0 ↔ ∃ id r, t.records.get? id = some r ∧ r.isOverdue cutoff = true := by
  rw [Ne, overdue_eq_zero_iff]
  simp only [not_forall, Bool.not_eq_false, exists_prop]

theorem spared_of_overdue_eq_zero (hNone : t.overdue cutoff = 0) : t.spared cutoff = t.records := by
  refine SortedMap.ext_get? fun id => ?_
  rw [spared, SortedMap.get?_filter]
  cases hGet : t.records.get? id with
  | none => rfl
  | some r => simp [overdue_eq_zero_iff.1 hNone id r hGet]

theorem values_of_spared (hRecords : u.records = t.spared cutoff) :
    u.records.values = t.records.values.filter fun r => !r.isOverdue cutoff := by
  rw [hRecords, spared, SortedMap.values_filter]

theorem marked_eq_add (hRecords : u.records = t.spared cutoff) :
    t.marked = t.overdue cutoff + u.marked := by
  have hOverdue : ∀ r : PartnerRecord,
      (r.isInflight && r.isOverdue cutoff) = r.isOverdue cutoff := fun r => by
    rw [PartnerRecord.isOverdue, ← Bool.and_assoc, Bool.and_self]
  rw [marked, marked, values_of_spared hRecords,
    List.countP_eq_countP_filter_add _ _ (·.isOverdue cutoff), List.countP_filter]
  simp only [hOverdue, overdue]

theorem size_eq_add (hRecords : u.records = t.spared cutoff) :
    t.records.size = t.overdue cutoff + u.records.size := by
  have hSize : ∀ m : SortedMap Int PartnerRecord, m.size = m.values.length := fun m => by
    rw [SortedMap.values, List.length_map, SortedMap.size]
  rw [hSize, hSize, values_of_spared hRecords, overdue, List.countP_eq_length_filter,
    ← List.length_eq_length_filter_add]

theorem overdue_of_spared (hRecords : u.records = t.spared cutoff) : u.overdue cutoff = 0 := by
  rw [overdue, values_of_spared hRecords, List.countP_filter, List.countP_eq_zero]
  simp

/-- What a later sweep leaves does not depend on an earlier one. -/
theorem spared_of_spared {later : Time} (hRecords : u.records = t.spared cutoff)
    (hLe : cutoff ≤ later) : u.spared later = t.spared later := by
  refine SortedMap.ext_get? fun id => ?_
  rw [spared, spared, hRecords, spared, SortedMap.get?_filter, SortedMap.get?_filter,
    SortedMap.get?_filter, Option.filter_filter]
  cases t.records.get? id with
  | none => rfl
  | some r =>
    have hLater : r.isOverdue cutoff = true → r.isOverdue later = true := fun hOverdue => by
      rw [PartnerRecord.isOverdue, Bool.and_eq_true] at hOverdue ⊢
      exact ⟨hOverdue.1, decide_eq_true (Time.lt_of_lt_of_le (of_decide_eq_true hOverdue.2) hLe)⟩
    cases hOverdue : r.isOverdue cutoff with
    | true => simp [Option.filter, hOverdue, hLater hOverdue]
    | false => simp [Option.filter, hOverdue]

theorem isKeyed_of_spared (hKeyed : t.IsKeyed) (hRecords : u.records = t.spared cutoff)
    (hNext : u.nextId = t.nextId) : u.IsKeyed := by
  intro id r hGet
  rw [hRecords, spared, SortedMap.get?_filter] at hGet
  exact hNext ▸ hKeyed id r (Option.eq_some_of_filter_eq_some hGet)

/-! ## What a sweep finds -/

theorem matching_inflight : t.matching .inflight = t.records.values.filter (·.isInflight) := by
  refine List.filter_congr fun r _ => ?_
  simp [SearchFilter.accepts, SearchFilter.inflight, MarkerFilter.accepts, PartnerRecord.isInflight]

theorem length_matching_inflight : (t.matching .inflight).length = t.marked := by
  rw [matching_inflight, marked, List.countP_eq_length_filter]

theorem stale_matching (t : RecordTable) (cutoff : Time) :
    Scavenger.stale cutoff (t.matching .inflight) =
      (t.records.values.filter (·.isOverdue cutoff)).map (·.id) := by
  rw [Scavenger.stale, matching_inflight, List.filter_filter]
  refine congrArg _ (List.filter_congr fun r _ => ?_)
  rw [PartnerRecord.isOverdue, Bool.and_comm]

theorem length_stale (t : RecordTable) (cutoff : Time) :
    (Scavenger.stale cutoff (t.matching .inflight)).length = t.overdue cutoff := by
  rw [stale_matching, List.length_map, overdue, List.countP_eq_length_filter]

theorem mem_stale (hKeyed : t.IsKeyed) :
    id ∈ Scavenger.stale cutoff (t.matching .inflight) ↔
      ∃ r, t.records.get? id = some r ∧ r.isOverdue cutoff = true := by
  simp only [stale_matching, List.mem_map, List.mem_filter, SortedMap.mem_values]
  constructor
  · rintro ⟨r, ⟨⟨key, hGet⟩, hOverdue⟩, rfl⟩
    obtain ⟨rfl, -⟩ := hKeyed key r hGet
    exact ⟨r, hGet, hOverdue⟩
  · rintro ⟨r, hGet, hOverdue⟩
    exact ⟨r, ⟨⟨id, hGet⟩, hOverdue⟩, (hKeyed id r hGet).1⟩

theorem missing?_stale (hKeyed : t.IsKeyed) (cutoff : Time) :
    t.missing? (Scavenger.stale cutoff (t.matching .inflight)) = none := by
  rw [missing?_eq_none_iff]
  intro id hMem
  obtain ⟨r, hGet, -⟩ := (mem_stale hKeyed).1 hMem
  exact ⟨r, hGet⟩

theorem erase_stale (hKeyed : t.IsKeyed) (cutoff : Time) :
    (Scavenger.stale cutoff (t.matching .inflight)).foldl SortedMap.erase t.records =
      t.spared cutoff := by
  refine SortedMap.ext_get? fun id => ?_
  have hMem : id ∈ Scavenger.stale cutoff (t.matching .inflight) ↔ _ := mem_stale hKeyed
  rw [get?_erased, spared, SortedMap.get?_filter]
  cases hGet : t.records.get? id with
  | none => simp
  | some r =>
    rw [hGet] at hMem
    cases hOverdue : r.isOverdue cutoff <;> simp [hMem, hOverdue, Option.filter]

end RecordTable

namespace Scavenger

open RecordTable

variable {t u : RecordTable} {config : ScavengerConfig} {now cutoff : Time}
  {clock : StateM RecordTable Time}

theorem runOn_sweepAt (hKeyed : t.IsKeyed) (hCutoff : config.cutoff? now = some cutoff) :
    runOn (sweepAt (RecordTable.system Cell.whole clock) config now) t =
      let found := report t.marked (t.overdue cutoff)
      let searched := { t with calls.search := t.calls.search + 1 }
      let counted := { searched with calls.delete := t.calls.delete + 1 }
      if t.overdue cutoff = 0 then (.ok found, searched)
      else if t.failures.deletes then (.error (.system (.unavailable "delete failed")), counted)
      else (.ok found, { counted with records := t.spared cutoff }) := by
  have hEmpty : (stale cutoff (t.matching .inflight)).isEmpty = decide (t.overdue cutoff = 0) := by
    rw [← length_stale]
    cases stale cutoff (t.matching .inflight) <;> rfl
  simp only [sweepAt, hCutoff, RecordTable.system, runOn_bind, runOn_adapt, runOn_whole,
    runOn_search, mapError_ok, hEmpty, length_matching_inflight, length_stale]
  by_cases hNone : t.overdue cutoff = 0
  · simp [hNone]
  · have hFound : ({ t with calls.search := t.calls.search + 1 } : RecordTable).missing?
        (stale cutoff (t.matching .inflight)) = none := missing?_stale hKeyed cutoff
    cases hFailing : t.failures.deletes with
    | true => simp [hNone, hFailing, runOn_delete]
    | false => simp [hNone, hFailing, runOn_delete, hFound, erase_stale hKeyed]

/-! ## How a sweep ends -/

/-- What a sweep that succeeds has found and done. -/
structure Swept (cutoff : Time) (t u : RecordTable) (found : SweepReport) : Prop where
  records_eq : u.records = t.records.filter fun _ r => !r.isOverdue cutoff
  nextId_eq : u.nextId = t.nextId
  examined_eq : found.examined = t.marked
  size_eq : t.records.size = found.deleted + u.records.size
  retained_eq : found.retained = u.marked
  examined_eq_add : found.examined = found.deleted + found.retained
  delete_le : u.calls.delete ≤ t.calls.delete + 1
  /-- Nobody asks to delete anything if no record is overdue. -/
  delete_eq : (∀ id r, t.records.get? id = some r → r.isOverdue cutoff = false) →
    u.calls.delete = t.calls.delete

/-- A sweep that fails has found records to delete, but deletions are refused. -/
structure Refused (cutoff : Time) (t u : RecordTable) (e : SweepError) : Prop where
  error_eq : e = .system (.unavailable "delete failed")
  refused : t.failures.deletes = true
  overdue : ∃ id r, t.records.get? id = some r ∧ r.isOverdue cutoff = true
  records_eq : u.records = t.records
  nextId_eq : u.nextId = t.nextId

inductive SweepOutcome (cutoff : Time) (t : RecordTable) :
    Except SweepError SweepReport × RecordTable → Prop
  | swept {found : SweepReport} {u : RecordTable} (h : Swept cutoff t u found) :
      SweepOutcome cutoff t (.ok found, u)
  | refused {e : SweepError} {u : RecordTable} (h : Refused cutoff t u e) :
      SweepOutcome cutoff t (.error e, u)

theorem swept_of_spared (hRecords : u.records = t.spared cutoff) (hNext : u.nextId = t.nextId)
    (hLe : u.calls.delete ≤ t.calls.delete + 1)
    (hEq : t.overdue cutoff = 0 → u.calls.delete = t.calls.delete) :
    Swept cutoff t u (report t.marked (t.overdue cutoff)) := by
  have hMarked := marked_eq_add hRecords
  have hRetained : t.marked - t.overdue cutoff = u.marked := by omega
  refine ⟨hRecords, hNext, rfl, size_eq_add hRecords, hRetained, ?_, hLe, ?_⟩
  · change t.marked = t.overdue cutoff + (t.marked - t.overdue cutoff)
    omega
  · intro hNone
    exact hEq (overdue_eq_zero_iff.2 hNone)

theorem sweepAt_outcome (clock : StateM RecordTable Time) (hKeyed : t.IsKeyed)
    (hCutoff : config.cutoff? now = some cutoff) :
    SweepOutcome cutoff t
      (runOn (sweepAt (RecordTable.system Cell.whole clock) config now) t) := by
  rw [runOn_sweepAt hKeyed hCutoff]
  dsimp only
  by_cases hNone : t.overdue cutoff = 0
  · rw [if_pos hNone]
    have hSame := spared_of_overdue_eq_zero hNone
    exact .swept (swept_of_spared hSame.symm rfl (Nat.le_succ _) fun _ => rfl)
  · rw [if_neg hNone]
    cases hFailing : t.failures.deletes with
    | true =>
      rw [if_pos rfl]
      exact .refused ⟨rfl, hFailing, overdue_ne_zero_iff.1 hNone, rfl, rfl⟩
    | false =>
      rw [if_neg Bool.false_ne_true]
      exact .swept (swept_of_spared rfl rfl (Nat.le_refl _) fun h => absurd h hNone)

theorem swept {found : SweepReport} (hKeyed : t.IsKeyed)
    (hCutoff : config.cutoff? now = some cutoff)
    (hRun : runOn (sweepAt (RecordTable.system Cell.whole clock) config now) t = (.ok found, u)) :
    Swept cutoff t u found := by
  have hOutcome : SweepOutcome cutoff t (.ok found, u) :=
    hRun ▸ sweepAt_outcome clock hKeyed hCutoff
  cases hOutcome with
  | swept h => exact h

theorem refused {e : SweepError} (hKeyed : t.IsKeyed) (hCutoff : config.cutoff? now = some cutoff)
    (hRun : runOn (sweepAt (RecordTable.system Cell.whole clock) config now) t = (.error e, u)) :
    Refused cutoff t u e := by
  have hOutcome : SweepOutcome cutoff t (.error e, u) :=
    hRun ▸ sweepAt_outcome clock hKeyed hCutoff
  cases hOutcome with
  | refused h => exact h

/-- A sweep fails only if deletions are refused. -/
theorem exists_swept (hKeyed : t.IsKeyed) (hCutoff : config.cutoff? now = some cutoff)
    (hServed : t.failures.deletes = false) :
    ∃ found u, runOn (sweepAt (RecordTable.system Cell.whole clock) config now) t =
      (.ok found, u) ∧ Swept cutoff t u found := by
  have hOutcome : SweepOutcome cutoff t _ := sweepAt_outcome clock hKeyed hCutoff
  generalize runOn (sweepAt (RecordTable.system Cell.whole clock) config now) t = ended
    at hOutcome ⊢
  cases hOutcome with
  | swept h => exact ⟨_, _, rfl, h⟩
  | refused h =>
    have hRefused := h.refused
    rw [hServed] at hRefused
    cases hRefused

theorem Swept.get?_eq_none {found : SweepReport} {id : Int} (h : Swept cutoff t u found)
    (hOverdue : ∀ r, t.records.get? id = some r → r.isOverdue cutoff = true) :
    u.records.get? id = none := by
  rw [h.records_eq, SortedMap.get?_filter]
  cases hGet : t.records.get? id with
  | none => rfl
  | some r => simp [Option.filter, hOverdue r hGet]

/-- Sweeping again at the same time finds the records that were retained and nothing to delete. -/
theorem Swept.again {found : SweepReport} (h : Swept cutoff t u found) (hKeyed : t.IsKeyed)
    (hCutoff : config.cutoff? now = some cutoff) :
    ∃ v, runOn (sweepAt (RecordTable.system Cell.whole clock) config now) u =
      (.ok ⟨found.retained, 0, found.retained⟩, v) ∧ v.records = u.records ∧
        v.calls.delete = u.calls.delete := by
  rw [runOn_sweepAt (isKeyed_of_spared hKeyed h.records_eq h.nextId_eq) hCutoff]
  have hNone := overdue_of_spared h.records_eq
  dsimp only
  rw [if_pos hNone, hNone, ← h.retained_eq]
  exact ⟨_, rfl, rfl, rfl⟩

theorem cutoff?_of_ok {found : SweepReport}
    (hRun : runOn (sweepAt (RecordTable.system Cell.whole clock) config now) t = (.ok found, u)) :
    ∃ cutoff, config.cutoff? now = some cutoff := by
  cases hCutoff : config.cutoff? now with
  | some cutoff => exact ⟨cutoff, rfl⟩
  | none =>
    simp only [sweepAt, hCutoff, runOn_throw] at hRun
    cases hRun

/-- A sweep after another one leaves what it would have left alone. -/
theorem Swept.later {found found₁ found₂ : SweepReport} {t' u' v w : RecordTable} {later : Time}
    (h : Swept cutoff t u found) (hKeyed : t.IsKeyed) (hCutoff : config.cutoff? now = some cutoff)
    (hLe : now ≤ later)
    (hLeapless : config.gracePeriodSecs = 0 ∨ now.IsOrdinary ∨ now.leapless ≤ later.leapless)
    (ht : t.Agrees t') (hu : u.Agrees u')
    (hSecond : runOn (sweepAt (RecordTable.system Cell.whole clock) config later) u' =
      (.ok found₁, v))
    (hOnly : runOn (sweepAt (RecordTable.system Cell.whole clock) config later) t' =
      (.ok found₂, w)) : v.records = w.records := by
  obtain ⟨cutoff', hCutoff'⟩ := cutoff?_of_ok hOnly
  have hOrder : cutoff ≤ cutoff' := Time.before?_mono hLe hLeapless (before?_of_cutoff? hCutoff)
    (before?_of_cutoff? hCutoff')
  have hKeyedU := isKeyed_of_spared hKeyed h.records_eq h.nextId_eq
  have hSwept := swept (hu.isKeyed hKeyedU) hCutoff' hSecond
  have hSwept' := swept (ht.isKeyed hKeyed) hCutoff' hOnly
  calc v.records = u'.spared cutoff' := hSwept.records_eq
    _ = t'.spared cutoff' := by
      refine spared_of_spared ?_ hOrder
      rw [hu.records_eq, h.records_eq, spared, ht.records_eq]
    _ = w.records := hSwept'.records_eq.symm

end Scavenger

/-- **A sweep removes exactly the overdue records**, or fails because deletions are refused. -/
theorem sweep_removes_exactly_overdue (calls : List TableCall) (clock : StateM RecordTable Time)
    (config : ScavengerConfig) (now cutoff : Time) (hCutoff : config.cutoff? now = some cutoff) :
    let t := TableCall.reached calls
    let sweep := Scavenger.sweepAt (RecordTable.system Cell.whole clock) config
    (∀ found u, runOn (sweep now) t = (.ok found, u) →
      Scavenger.Swept cutoff t u found ∧
      (∃ v, runOn (sweep now) u = (.ok ⟨found.retained, 0, found.retained⟩, v) ∧
        v.records = u.records ∧ v.calls.delete = u.calls.delete) ∧
      ∀ later t' u' found₁ found₂ v w, now ≤ later →
        (config.gracePeriodSecs = 0 ∨ now.IsOrdinary ∨ now.leapless ≤ later.leapless) →
        t.Agrees t' → u.Agrees u' → runOn (sweep later) u' = (.ok found₁, v) →
        runOn (sweep later) t' = (.ok found₂, w) → v.records = w.records) ∧
    ∀ e u, runOn (sweep now) t = (.error e, u) → Scavenger.Refused cutoff t u e := by
  have hKeyed := (TableCall.isOrderly_reached calls).keyed
  refine ⟨fun found u hRun => ?_, fun e u hRun => Scavenger.refused hKeyed hCutoff hRun⟩
  have hSwept := Scavenger.swept hKeyed hCutoff hRun
  exact ⟨hSwept, hSwept.again hKeyed hCutoff,
    fun later t' u' found₁ found₂ v w hLe hLeapless ht hu hSecond hOnly =>
      hSwept.later hKeyed hCutoff hLe hLeapless ht hu hSecond hOnly⟩

def TableCall.unconfirmed (time : Time) : TableCall :=
  .insertAt time ((NewRecord.company "Acme Corp" "acme").withMarker "m")

/-- Of three records a sweep a minute later removes the first one: the second one is not old enough,
the third one has no marker. -/
theorem sweep_removes_exactly_overdue_first :
    let config : ScavengerConfig := { gracePeriodSecs := 60 }
    let t := TableCall.reached [.unconfirmed ⟨0, 0⟩, .unconfirmed ⟨100, 0⟩,
      .insertAt ⟨0, 0⟩ (.company "Acme Corp" "acme")]
    config.cutoff? ⟨120, 0⟩ = some ⟨60, 0⟩ ∧
    ∃ u, runOn (Scavenger.sweepAt (RecordTable.system Cell.whole (pure ⟨0, 0⟩)) config ⟨120, 0⟩) t =
        (.ok ⟨2, 1, 1⟩, u) ∧
      u.records.keys = [2, 3] ∧ Scavenger.Swept ⟨60, 0⟩ t u ⟨2, 1, 1⟩ := by
  have hCutoff : ScavengerConfig.cutoff? { gracePeriodSecs := 60 } ⟨120, 0⟩ = some ⟨60, 0⟩ := by
    decide +kernel
  refine ⟨hCutoff, _, rfl, rfl, ?_⟩
  exact ((sweep_removes_exactly_overdue _ (pure ⟨0, 0⟩) _ _ _ hCutoff).1 _ _ rfl).1

/-- Half a second before midnight a sweep inside a leap second already removes a record that a sweep
at midnight would keep: an hour before the leap second is an hour before the second after it. -/
theorem sweep_inside_leap_second :
    let t := TableCall.reached [.unconfirmed ⟨1483225200, 250000000⟩]
    let sweep := Scavenger.sweepAt (RecordTable.system Cell.whole (pure ⟨0, 0⟩)) {}
    let inside : Time := ⟨1483228799, 1500000000⟩
    let midnight : Time := ⟨1483228800, 0⟩
    inside ≤ midnight ∧
    ∃ u v w, runOn (sweep inside) t = (.ok ⟨1, 1, 0⟩, u) ∧
      runOn (sweep midnight) u = (.ok ⟨0, 0, 0⟩, v) ∧
      runOn (sweep midnight) t = (.ok ⟨1, 0, 1⟩, w) ∧
      v.records ≠ w.records := by
  refine ⟨by decide +kernel, _, _, _, rfl, rfl, rfl, fun hSame => ?_⟩
  have hKeys := congrArg SortedMap.keys hSame
  exact absurd hKeys (by decide +kernel)

end Tenancy
