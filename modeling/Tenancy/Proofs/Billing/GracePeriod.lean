import Tenancy.Proofs.Billing.Sweep

/-!
# Grace periods that are too large

Any positive number of seconds passes as a grace period.  Beyond the largest duration, and already
where it reaches back before the calendar, a sweep crashes before it calls the record system; it
does not take such a grace period for one that is never over (`sweep_crashes_iff`).
-/

namespace Tenancy

theorem requirePositive_eq_ok_iff {settings : List (String × Nat)} :
    requirePositive settings = .ok () ↔ ∀ setting ∈ settings, 0 < setting.2 := by
  induction settings with
  | nil => simp [requirePositive]
  | cons setting rest ih =>
    obtain ⟨key, value⟩ := setting
    rw [requirePositive, List.forall_mem_cons]
    by_cases hZero : value = 0
    · rw [if_pos hZero]
      simp [hZero]
    · rw [if_neg hZero, ih]
      simp [Nat.pos_of_ne_zero hZero]

namespace ScavengerConfig

variable {config : ScavengerConfig} {now : Time}

theorem validate_eq_ok_iff :
    config.validate = .ok () ↔ 0 < config.intervalSecs ∧ 0 < config.gracePeriodSecs := by
  simp [validate, requirePositive_eq_ok_iff]

theorem gracePeriod?_eq_none_iff :
    config.gracePeriod? = none ↔ maxDuration < config.gracePeriodSecs := by
  rw [gracePeriod?]
  split
  · rename_i hFits
    simpa using hFits
  · rename_i hLarge
    simpa using hLarge

/-- What is no duration reaches back before the calendar, wherever in it one begins. -/
theorem lt_earliest_of_maxDuration_lt (hNow : now.isInRange = true)
    (hLarge : maxDuration < config.gracePeriodSecs) :
    now.leapless.seconds - config.gracePeriodSecs < Time.earliest := by
  have hLeapless := now.seconds_leapless_le
  have hBelow := (Time.isInRange_iff_seconds.1 hNow).2
  have hCalendar : Time.beyond - maxDuration < Time.earliest := by decide
  omega

theorem cutoff?_eq_none_iff (hGrace : 0 < config.gracePeriodSecs) (hNow : now.isInRange = true) :
    config.cutoff? now = none ↔
      now.leapless.seconds - config.gracePeriodSecs < Time.earliest := by
  rw [cutoff?, gracePeriod?]
  split
  · exact Time.before?_eq_none_iff hNow (Nat.ne_of_gt hGrace)
  · rename_i hLarge
    have hBefore := lt_earliest_of_maxDuration_lt hNow (Nat.lt_of_not_le hLarge)
    simpa using hBefore

end ScavengerConfig

/-- **A sweep crashes if its grace period reaches back before the calendar**, and only then; it has
not called the record system before. -/
theorem sweep_crashes_iff (config : ScavengerConfig) (hValid : config.validate = .ok ())
    (now : Time) (hNow : now.isInRange = true) (calls : List TableCall)
    (clock : StateM RecordTable Time) :
    let t := TableCall.reached calls
    let cutoff : Time := ⟨now.leapless.seconds - config.gracePeriodSecs, now.leapless.nanos⟩
    let ended := runOn (Scavenger.sweepAt (RecordTable.system Cell.whole clock) config now) t
    (config.gracePeriod? = none ↔ ScavengerConfig.maxDuration < config.gracePeriodSecs) ∧
    (ended = (.error .beyondCalendar, t) ↔ cutoff.seconds < Time.earliest) ∧
    (Time.earliest ≤ cutoff.seconds → Scavenger.SweepOutcome cutoff t ended) := by
  dsimp only
  have hKeyed := (TableCall.isOrderly_reached calls).keyed
  have hGrace := (ScavengerConfig.validate_eq_ok_iff.1 hValid).2
  refine ⟨ScavengerConfig.gracePeriod?_eq_none_iff, ?_⟩
  rw [← ScavengerConfig.cutoff?_eq_none_iff hGrace hNow, ← Int.not_lt,
    ← ScavengerConfig.cutoff?_eq_none_iff hGrace hNow]
  cases hCutoff : config.cutoff? now with
  | none =>
    have hCrash : runOn (Scavenger.sweepAt (RecordTable.system Cell.whole clock) config now)
        (TableCall.reached calls) = (.error .beyondCalendar, TableCall.reached calls) := by
      simp only [Scavenger.sweepAt, hCutoff, runOn_throw]
    constructor
    · simp [hCrash]
    · intro hSome
      exact absurd rfl hSome
  | some cutoff =>
    obtain rfl := Time.before?_of_ne_zero (Nat.ne_of_gt hGrace) (before?_of_cutoff? hCutoff)
    have hOutcome := Scavenger.sweepAt_outcome clock hKeyed hCutoff
    refine ⟨?_, fun _ => hOutcome⟩
    generalize runOn (Scavenger.sweepAt _ config now) (TableCall.reached calls) = ended at hOutcome
    cases hOutcome with
    | swept h => simp
    | refused h => simp [h.error_eq]

/-- Two grace periods that pass: one second more than a duration can have, and a duration that is
longer than the calendar.  The record that has waited since 1970 is not even looked at. -/
theorem sweep_crashes_iff_too_large :
    let longest : ScavengerConfig := { gracePeriodSecs := 9223372036854776 }
    let shorter : ScavengerConfig := { gracePeriodSecs := 9000000000000 }
    let sweep := Scavenger.sweepAt (RecordTable.system Cell.whole (pure ⟨0, 0⟩))
    let now : Time := ⟨1700000000, 0⟩
    let t := TableCall.reached [.unconfirmed ⟨0, 0⟩]
    now.isInRange = true ∧
    longest.validate = .ok () ∧ longest.gracePeriod? = none ∧
    runOn (sweep longest now) t = (.error .beyondCalendar, t) ∧
    shorter.validate = .ok () ∧ shorter.gracePeriod? = some 9000000000000 ∧
    runOn (sweep shorter now) t = (.error .beyondCalendar, t) := by
  have hNow : Time.isInRange ⟨1700000000, 0⟩ = true := by decide +kernel
  have hLongest := sweep_crashes_iff { gracePeriodSecs := 9223372036854776 } rfl _ hNow
    [.unconfirmed ⟨0, 0⟩] (pure ⟨0, 0⟩)
  have hShorter := sweep_crashes_iff { gracePeriodSecs := 9000000000000 } rfl _ hNow
    [.unconfirmed ⟨0, 0⟩] (pure ⟨0, 0⟩)
  exact ⟨hNow, rfl, hLongest.1.2 (by decide), hLongest.2.1.2 (by decide +kernel), rfl, rfl,
    hShorter.2.1.2 (by decide +kernel)⟩

end Tenancy
