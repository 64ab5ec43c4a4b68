import Tenancy.Proofs.Time.Calendar
import Tenancy.Time.Basic

/-!
# The order of times

Times compare as pairs.  A time lies before what a clock shows, moved back by some seconds, exactly
if what the clock shows lies after the time moved on by as many (`Time.after_lt_of_lt_before?`);
this fails only inside leap seconds, which a clock does not show.

* `Time.before?_mono`: when moving back keeps the order.
* `Time.before?_eq_none_iff`: when there is no time so far back.
-/

namespace Tenancy.Time

variable {a b c : Time}

/-- The time is no leap second, as anything that a clock shows. -/
def IsOrdinary (t : Time) : Prop := t.nanos < 1000000000

instance (t : Time) : Decidable t.IsOrdinary := inferInstanceAs (Decidable (_ < _))

theorem lt_iff : a < b ↔ a.seconds < b.seconds ∨ a.seconds = b.seconds ∧ a.nanos < b.nanos := by
  change a.lt b = true ↔ _
  simp [lt]

theorem le_iff : a ≤ b ↔ a.seconds < b.seconds ∨ a.seconds = b.seconds ∧ a.nanos ≤ b.nanos := by
  change ¬ b < a ↔ _
  rw [lt_iff]
  omega

theorem le_refl (a : Time) : a ≤ a := by
  rw [le_iff]
  omega

theorem le_trans (hab : a ≤ b) (hbc : b ≤ c) : a ≤ c := by
  rw [le_iff] at *
  omega

theorem lt_of_lt_of_le (hab : a < b) (hbc : b ≤ c) : a < c := by
  rw [lt_iff] at *
  rw [le_iff] at hbc
  omega

theorem not_le_of_lt (hab : a < b) : ¬ b ≤ a := fun hba => hba hab

theorem after_mono (ha : a.IsOrdinary) (hb : b.IsOrdinary) (hab : a ≤ b) (seconds : Nat) :
    a.after seconds ≤ b.after seconds := by
  rw [after, after]
  split
  · exact hab
  · simp only [IsOrdinary] at ha hb
    simp only [le_iff, Nat.mod_eq_of_lt ha, Nat.mod_eq_of_lt hb] at hab ⊢
    omega

/-! ## Moving back -/

theorem leapless_of_isOrdinary (ha : a.IsOrdinary) : a.leapless = a :=
  if_neg (Nat.not_le_of_lt ha)

theorem le_leapless (a : Time) : a ≤ a.leapless := by
  rw [leapless]
  split
  · rw [le_iff]
    dsimp only
    omega
  · exact le_refl a

theorem seconds_leapless_le (a : Time) : a.leapless.seconds ≤ a.seconds + 1 := by
  rw [leapless]
  split
  · exact Int.le_refl _
  · omega

theorem before?_of_ne_zero {seconds : Nat} (hSome : seconds ≠ 0)
    (hBefore : a.before? seconds = some b) :
    b = ⟨a.leapless.seconds - seconds, a.leapless.nanos⟩ := by
  rw [before?, if_neg hSome] at hBefore
  dsimp only at hBefore
  split at hBefore
  · exact (Option.some.inj hBefore).symm
  · cases hBefore

/-- Times keep their order when they are moved back, unless this is different once leap seconds are
counted as the seconds after them. -/
theorem before?_mono {a' b' : Time} {seconds : Nat} (hab : a ≤ b)
    (hLeapless : seconds = 0 ∨ a.IsOrdinary ∨ a.leapless ≤ b.leapless)
    (ha : a.before? seconds = some a') (hb : b.before? seconds = some b') : a' ≤ b' := by
  by_cases hZero : seconds = 0
  · rw [before?, if_pos hZero] at ha hb
    obtain rfl := Option.some.inj ha
    obtain rfl := Option.some.inj hb
    exact hab
  · have hBoth : a.leapless ≤ b.leapless := by
      rcases hLeapless.resolve_left hZero with hOrdinary | hLe
      · rw [leapless_of_isOrdinary hOrdinary]
        exact le_trans hab (le_leapless b)
      · exact hLe
    obtain rfl := before?_of_ne_zero hZero ha
    obtain rfl := before?_of_ne_zero hZero hb
    rw [le_iff] at hBoth ⊢
    dsimp only
    omega

def earliest : Int := (⟨Date.firstYear, 1, 1⟩ : Date).dayNumber * 86400

def beyond : Int := (⟨Date.lastYear + 1, 1, 1⟩ : Date).dayNumber * 86400

theorem isInRange_iff (t : Time) :
    t.isInRange = true ↔ Date.firstYear ≤ t.date.year ∧ t.date.year ≤ Date.lastYear := by
  simp [isInRange]

theorem isInRange_iff_seconds : a.isInRange = true ↔ earliest ≤ a.seconds ∧ a.seconds < beyond := by
  have hFirst : Date.firstYear ≤ (Date.ofDayNumber a.dayNumber).year ↔ _ :=
    Date.le_year_ofDayNumber_iff
  have hLast : Date.lastYear + 1 ≤ (Date.ofDayNumber a.dayNumber).year ↔ _ :=
    Date.le_year_ofDayNumber_iff
  rw [isInRange_iff, date, earliest, beyond]
  rw [dayNumber] at *
  omega

/-- From a time of the calendar one can move back until its first second. -/
theorem before?_eq_none_iff {seconds : Nat} (ha : a.isInRange = true) (hSome : seconds ≠ 0) :
    a.before? seconds = none ↔ a.leapless.seconds - seconds < earliest := by
  have hLeapless := seconds_leapless_le a
  have hBelow := (isInRange_iff_seconds.1 ha).2
  have hMoved := isInRange_iff_seconds (a := ⟨a.leapless.seconds - seconds, a.leapless.nanos⟩)
  rw [before?, if_neg hSome]
  dsimp only at hMoved ⊢
  split
  · rename_i hIn
    have hFirst := (hMoved.1 hIn).1
    simp only [reduceCtorEq, false_iff]
    omega
  · rename_i hOut
    simp only [true_iff]
    by_contra hNot
    exact hOut (hMoved.2 (by omega))

theorem after_lt_of_lt_before? {now cutoff : Time} {seconds : Nat} (hNow : now.IsOrdinary)
    (hCutoff : now.before? seconds = some cutoff) (ha : a < cutoff) : a.after seconds < now := by
  rw [after]
  split
  · rename_i hZero
    rw [before?, if_pos hZero] at hCutoff
    obtain rfl := Option.some.inj hCutoff
    exact ha
  · rename_i hSome
    obtain rfl := before?_of_ne_zero hSome hCutoff
    rw [leapless_of_isOrdinary hNow] at ha
    have hMod := Nat.mod_le a.nanos 1000000000
    simp only [lt_iff] at ha ⊢
    omega

end Tenancy.Time
