import Tenancy.Billing.System
import Tenancy.Store.Config

/-!
# The scavenger

Creations that fail leave marked records behind.  A sweep looks for all marked records and deletes
those that were created before the grace period began, in one batch; if that is refused, the sweep
fails as a whole and the next one sees the same records again.

A grace period can be too large: longer than any duration, or reaching back beyond the calendar.  A
sweep then comes to nothing before it has called the record system (`SweepError.beyondCalendar`).
-/

namespace Tenancy

structure ScavengerConfig where
  /-- The age in seconds from which a marked record is stale. -/
  gracePeriodSecs : Nat := 3600
  /-- The seconds between two sweeps. -/
  intervalSecs : Nat := 600
  enabled : Bool := true
  deriving DecidableEq

namespace ScavengerConfig

/-- The configuration that the variables of an environment give. -/
def ofEnv (env : String → Option String) : ScavengerConfig where
  gracePeriodSecs := numberFrom env "BILLING_SCAVENGER_GRACE_SECS" 3600
  intervalSecs := numberFrom env "BILLING_SCAVENGER_INTERVAL_SECS" 600
  enabled := (env "BILLING_SCAVENGER_ENABLED").all fun s => s ≠ "false" && s ≠ "0"

def validate (c : ScavengerConfig) : Except ConfigError Unit :=
  requirePositive [("interval_secs", c.intervalSecs), ("grace_period_secs", c.gracePeriodSecs)]

/-- The largest number of seconds that a duration of 64-bit milliseconds can have. -/
def maxDuration : Nat := 9223372036854775

/-- The grace period in seconds, if it is a duration. -/
def gracePeriod? (c : ScavengerConfig) : Option Nat :=
  if c.gracePeriodSecs ≤ maxDuration then some c.gracePeriodSecs else none

/-- The time before which marked records are stale. -/
def cutoff? (c : ScavengerConfig) (now : Time) : Option Time := c.gracePeriod?.bind now.before?

def describe (c : ScavengerConfig) : String :=
  "ScavengerConfig \x7b grace_period_secs: " ++ toString c.gracePeriodSecs ++ ", interval_secs: " ++
    toString c.intervalSecs ++ ", enabled: " ++ (if c.enabled then "true" else "false") ++ " \x7d"

end ScavengerConfig

/-- What a sweep has found and done. -/
structure SweepReport where
  examined : Nat
  deleted : Nat
  retained : Nat
  deriving DecidableEq

inductive SweepError where
  /-- The record system has failed. -/
  | system (e : BillingError)
  /-- There is no time so far back as the grace period reaches. -/
  | beyondCalendar
  deriving DecidableEq

namespace Scavenger

/-- The identifiers of the records created before the cutoff. -/
def stale (cutoff : Time) (marked : List PartnerRecord) : List Int :=
  (marked.filter (·.createdAt < cutoff)).map (·.id)

def report (examined deleted : Nat) : SweepReport := ⟨examined, deleted, examined - deleted⟩

/-- One sweep at the time `now`. -/
def sweepAt {m : Type → Type} [Monad m] (system : RecordSystem m) (config : ScavengerConfig)
    (now : Time) : ExceptT SweepError m SweepReport := do
  match config.cutoff? now with
  | none => throw .beyondCalendar
  | some cutoff =>
    let marked ← (system.search .inflight).adapt .system
    let ids := stale cutoff marked
    if !ids.isEmpty then (system.delete ids).adapt .system
    return report marked.length ids.length

/-- The form in descriptions. -/
def describe (config : ScavengerConfig) : String :=
  "Scavenger \x7b config: " ++ config.describe ++ ", .. \x7d"

end Scavenger

end Tenancy
