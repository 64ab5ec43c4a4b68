import Tenancy.Billing.Scavenger

/-!
# The scavenger at work

A scavenger that is started sweeps at once and then at every interval, until it is told to stop or
nobody is left who could tell it.  A sweep that fails does not end it, but a grace period beyond the
calendar does, and so does an interval of no length.
-/

namespace Tenancy

inductive TaskStatus where
  | running
  | done
  | crashed
  deriving DecidableEq

/-- A scavenger that has been started. -/
structure ScavengerTask where
  status : TaskStatus
  /-- The seconds until the next sweep. -/
  untilNext : Nat

namespace ScavengerTask

variable {m : Type → Type} [Monad m]

/-- One sweep of a running task. -/
def sweep (sweepNow : ExceptT SweepError m SweepReport) (interval : Nat) : m ScavengerTask := do
  match ← sweepNow.run with
  | .error .beyondCalendar => return ⟨.crashed, interval⟩
  | _ => return ⟨.running, interval⟩

/-- Starts the scavenger; `sweepNow` is a sweep at the time at which it is called. -/
def start (sweepNow : ExceptT SweepError m SweepReport) (config : ScavengerConfig) :
    m ScavengerTask :=
  if !config.enabled then pure ⟨.done, 0⟩
  else if config.intervalSecs = 0 then pure ⟨.crashed, 0⟩
  else sweep sweepNow config.intervalSecs

/-- Lets up to `fuel` sweeps come due within a number of seconds. -/
def run (sweepNow : ExceptT SweepError m SweepReport) (interval : Nat) :
    (fuel : Nat) → (seconds : Nat) → ScavengerTask → m ScavengerTask
  | 0, _, task => pure task
  | fuel + 1, seconds, task =>
    if task.status ≠ .running then pure task
    else if seconds < task.untilNext then
      pure { task with untilNext := task.untilNext - seconds }
    else do
      let next ← sweep sweepNow interval
      run sweepNow interval fuel (seconds - task.untilNext) next

/-- Lets a number of seconds pass; a sweep that is due at their end takes place. -/
def advance (sweepNow : ExceptT SweepError m SweepReport) (config : ScavengerConfig)
    (seconds : Nat) (task : ScavengerTask) : m ScavengerTask :=
  run sweepNow config.intervalSecs (seconds + 1) seconds task

/-- Tells a running task to stop. -/
def stop (task : ScavengerTask) : ScavengerTask :=
  if task.status = .running then { task with status := .done } else task

end ScavengerTask

end Tenancy
