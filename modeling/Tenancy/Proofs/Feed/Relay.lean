import Mathlib.Data.List.Infix
import Tenancy.Feed.Watch
import Tenancy.Proofs.Operation

/-!
# Steps of relays

What one step of the last relay of a watch can do (`Watch.StepOutcome`), each end of it with all
that has been checked on the way, and what the consumer does at the other end of the channel
(`WatchMove`).  What a relay holds (`Relay.held`) goes to the consumer in order, so a step adds to
it at the end, and the consumer takes from its beginning.

* `Watch.step_outcome`: every step has one of these ends.
* `Watching.move`: a relay or the consumer of a watch makes a move.
-/

namespace Tenancy

variable {σ α : Type}

/-! ## Relays -/

namespace Relay

variable {r : Relay α} {e : Event α} {isLast : Bool}

/-- The relay still takes events for its consumer. -/
structure IsRunning (r : Relay α) : Prop where
  notDone : r.isDone = false
  isOpen : r.channel.isOpen = true

/-- The events that the relay has taken and the consumer has not received. -/
def held (r : Relay α) : List (Event α) := r.channel.queue ++ r.inHand.toList

theorem held_of_empty (hHand : r.inHand = none) : r.held = r.channel.queue := by
  rw [held, hHand, Option.toList_none, List.append_nil]

theorem channel_deliver (hRunning : r.IsRunning) (hRoom : r.channel.room ≠ 0) :
    (r.deliver e).channel = { r.channel with queue := r.channel.queue ++ [e] } := by
  simp only [deliver, Channel.send, StateT.run, hRunning.isOpen, Bool.not_true, Bool.false_eq_true,
    if_false, hRoom]

/-- A delivery moves the event from the hand into the channel. -/
theorem held_deliver (hRunning : r.IsRunning) (hRoom : r.channel.room ≠ 0)
    (hHand : r.inHand = some e) : (r.deliver e).held = r.held := by
  rw [held_of_empty rfl, held, channel_deliver hRunning hRoom, hHand, Option.toList_some]

theorem held_hold (hHand : r.inHand = none) : (r.hold e isLast).held = r.held ++ [e] := by
  rw [held_of_empty hHand]
  rfl

theorem IsRunning.congr {r r' : Relay α} (hRunning : r.IsRunning)
    (hSenders : r'.channel.senders = r.channel.senders)
    (hOpen : r'.channel.isOpen = r.channel.isOpen) : r'.IsRunning where
  notDone := by
    have hDone := hRunning.notDone
    rwa [Relay.isDone, ← hSenders] at hDone
  isOpen := hOpen.trans hRunning.isOpen

theorem IsRunning.deliver (hRunning : r.IsRunning) (hRoom : r.channel.room ≠ 0) :
    (r.deliver e).IsRunning := by
  have hChannel : (r.deliver e).channel = _ := channel_deliver hRunning hRoom
  refine hRunning.congr ?_ ?_
  · rw [hChannel]
  · rw [hChannel]

/-- A relay that has finished does not run, and one that was not running does not begin to. -/
theorem IsRunning.of_finish (hRunning : r.finish.IsRunning) : r.IsRunning where
  notDone := decide_eq_false fun hNone => by
    have hSome : ¬ r.channel.senders - 1 = 0 := of_decide_eq_false hRunning.notDone
    exact hSome (by rw [hNone])
  isOpen := hRunning.isOpen

end Relay

/-! ## Steps -/

namespace Watch

variable {w w' : Watch (StateM σ) α} {r : Relay α} {st : σ}

@[simp]
theorem relay_withRelay (w : Watch (StateM σ) α) (r : Relay α) : (w.withRelay r).relay = r := by
  cases w <;> rfl

/-- Taking from the source leaves the relay as it is. -/
theorem relay_take (w : Watch (StateM σ) α) (st : σ) : (w.take.run st).1.2.relay = w.relay := by
  cases w with
  | relayed source r => rfl
  | filtered inner test r =>
    rw [take]
    rcases inner.receive with ⟨_ | _ | _, inner⟩ <;> rfl

inductive StepOutcome (w : Watch (StateM σ) α) (r : Relay α) (st : σ) :
    (Bool × Watch (StateM σ) α) × σ → Prop
  | done (hDone : r.isDone = true) : StepOutcome w r st ((false, w), st)
  | cancelled (hDone : r.isDone = false) (hClosed : r.channel.isOpen = false) :
      StepOutcome w r st ((true, (w.finish.run st).1), (w.finish.run st).2)
  | blocked (e : Event α) (hRunning : r.IsRunning) (hHand : r.inHand = some e)
      (hRoom : r.channel.room = 0) : StepOutcome w r st ((false, w), st)
  | delivered (e : Event α) (hRunning : r.IsRunning) (hHand : r.inHand = some e)
      (hRoom : r.channel.room ≠ 0) (hLast : r.isLast = false) :
      StepOutcome w r st ((true, w.withRelay (r.deliver e)), st)
  | deliveredLast (e : Event α) (hRunning : r.IsRunning) (hHand : r.inHand = some e)
      (hRoom : r.channel.room ≠ 0) (hLast : r.isLast = true) :
      StepOutcome w r st
        ((true, ((w.withRelay (r.deliver e)).finish.run st).1),
          ((w.withRelay (r.deliver e)).finish.run st).2)
  | held (e : Event α) (w' : Watch (StateM σ) α) (t : σ) (hRunning : r.IsRunning)
      (hHand : r.inHand = none) (hTake : w.take.run st = ((.event e, w'), t))
      (hPasses : ((w'.passes e).run t).1 = true) :
      StepOutcome w r st ((true, w'.withRelay (r.hold e false)), ((w'.passes e).run t).2)
  | skipped (e : Event α) (w' : Watch (StateM σ) α) (t : σ) (hRunning : r.IsRunning)
      (hHand : r.inHand = none) (hTake : w.take.run st = ((.event e, w'), t))
      (hPasses : ((w'.passes e).run t).1 = false) :
      StepOutcome w r st ((true, w'), ((w'.passes e).run t).2)
  | heldLast (e : Event α) (w' : Watch (StateM σ) α) (t : σ) (hRunning : r.IsRunning)
      (hHand : r.inHand = none) (hTake : w.take.run st = ((.last e, w'), t)) :
      StepOutcome w r st ((true, w'.withRelay (r.hold e true)), t)
  | waiting (w' : Watch (StateM σ) α) (t : σ) (hRunning : r.IsRunning) (hHand : r.inHand = none)
      (hTake : w.take.run st = ((.pending, w'), t)) : StepOutcome w r st ((false, w'), t)
  | ended (w' : Watch (StateM σ) α) (t : σ) (hRunning : r.IsRunning) (hHand : r.inHand = none)
      (hTake : w.take.run st = ((.ended, w'), t)) :
      StepOutcome w r st ((true, (w'.finish.run t).1), (w'.finish.run t).2)

theorem step_outcome (w : Watch (StateM σ) α) (st : σ) :
    StepOutcome w w.relay st (w.step.run st) := by
  rw [step]
  cases hDone : w.relay.isDone with
  | true => exact .done hDone
  | false =>
    cases hOpen : w.relay.channel.isOpen with
    | false => exact .cancelled hDone hOpen
    | true =>
      have hRunning : w.relay.IsRunning := ⟨hDone, hOpen⟩
      cases hHand : w.relay.inHand with
      | some e =>
        by_cases hRoom : w.relay.channel.room = 0
        · simp only [hRoom]
          exact .blocked e hRunning hHand hRoom
        · cases hLast : w.relay.isLast with
          | false =>
            simp only [hRoom]
            exact .delivered e hRunning hHand hRoom hLast
          | true =>
            simp only [hRoom]
            exact .deliveredLast e hRunning hHand hRoom hLast
      | none =>
        have hSame := w.relay_take st
        simp only [Bool.not_true, Bool.false_eq_true, if_false, run_bind]
        rcases hTake : w.take.run st with ⟨⟨e | e | _ | _, w'⟩, t⟩
        · obtain hSame : w'.relay = w.relay := by rwa [hTake] at hSame
          simp only [run_bind, hSame]
          cases hPasses : ((w'.passes e).run t).1 with
          | true => exact .held e w' t hRunning hHand hTake hPasses
          | false => exact .skipped e w' t hRunning hHand hTake hPasses
        · obtain hSame : w'.relay = w.relay := by rwa [hTake] at hSame
          simp only [hSame]
          exact .heldLast e w' t hRunning hHand hTake
        · exact .waiting w' t hRunning hHand hTake
        · exact .ended w' t hRunning hHand hTake

/-- One step of the relay with `level` relays before it. -/
def stepAt (level : Nat) (w : Watch (StateM σ) α) : StateM σ (Bool × Watch (StateM σ) α) :=
  if w.depth = level then w.step
  else
    match w with
    | .relayed source r => pure (false, .relayed source r)
    | .filtered inner test r => do
      let (moved, inner) ← inner.stepAt level
      return (moved, .filtered inner test r)

theorem stepAt_depth (w : Watch (StateM σ) α) : w.stepAt w.depth = w.step := by
  unfold stepAt
  rw [if_pos rfl]

theorem relay_finish (w : Watch (StateM σ) α) (st : σ) :
    (w.finish.run st).1.relay = w.relay.finish := by
  cases w <;> rfl

/-- If the last relay is not running, a step of any relay of the chain leaves it as it is, or ends
it. -/
theorem relay_stepAt_of_over (hOver : ¬ w.relay.IsRunning) (level : Nat) (st : σ) :
    ((w.stepAt level).run st).1.2.relay = w.relay ∨
      ((w.stepAt level).run st).1.2.relay = w.relay.finish := by
  by_cases hLevel : w.depth = level
  · have hOutcome := w.step_outcome st
    rw [← hLevel, stepAt_depth]
    generalize w.step.run st = outcome at hOutcome
    cases hOutcome with
    | done => exact .inl rfl
    | cancelled => exact .inr (w.relay_finish st)
    | blocked _ hRunning => exact absurd hRunning hOver
    | delivered _ hRunning => exact absurd hRunning hOver
    | deliveredLast _ hRunning => exact absurd hRunning hOver
    | held _ _ _ hRunning => exact absurd hRunning hOver
    | skipped _ _ _ hRunning => exact absurd hRunning hOver
    | heldLast _ _ _ hRunning => exact absurd hRunning hOver
    | waiting _ _ hRunning => exact absurd hRunning hOver
    | ended _ _ hRunning => exact absurd hRunning hOver
  · cases w with
    | relayed source r =>
      rw [stepAt, if_neg hLevel]
      exact .inl rfl
    | filtered inner test r =>
      rw [stepAt, if_neg hLevel]
      exact .inl rfl

end Watch

/-! ## Consumers -/

def Delivery.event? : Delivery α → Option (Event α)
  | .event e => some e
  | _ => none

theorem Channel.receive_cases (c : Channel α) :
    (∃ e rest, c.queue = e :: rest ∧
      Channel.receive.run c = (.event e, { c with queue := rest })) ∨
    ∃ delivery, c.queue = [] ∧ delivery.event? = none ∧ Channel.receive.run c = (delivery, c) := by
  simp only [Channel.receive, StateT.run]
  cases hQueue : c.queue with
  | cons e rest => exact .inl ⟨e, rest, rfl, rfl⟩
  | nil =>
    refine .inr ⟨_, rfl, ?_, rfl⟩
    split <;> rfl

/-- A watch, and the events that its consumer has received. -/
structure Watching (σ α : Type) where
  watch : Watch (StateM σ) α
  received : List (Event α)

inductive WatchMove where
  /-- The relay with `level` relays before it makes a step. -/
  | relay (level : Nat)
  | receive
  | stop
  | drop

namespace Watching

def move (v : Watching σ α) : WatchMove → StateM σ (Watching σ α)
  | .relay level => do
    let (_, watch) ← v.watch.stepAt level
    return { v with watch := watch }
  | .receive =>
    let (delivery, watch) := v.watch.receive
    pure ⟨watch, v.received ++ delivery.event?.toList⟩
  | .stop => pure { v with watch := v.watch.stop }
  | .drop => pure { v with watch := v.watch.drop }

/-- What has been received stays so. -/
theorem received_prefix_move (v : Watching σ α) (move : WatchMove) (st : σ) :
    v.received <+: ((v.move move).run st).1.received := by
  cases move with
  | receive => exact List.prefix_append ..
  | relay level => exact List.prefix_refl _
  | stop => exact List.prefix_refl _
  | drop => exact List.prefix_refl _

/-- Once the last relay is not running, the consumer receives at most what the channel holds. -/
theorem over_move {v : Watching σ α} (hOver : ¬ v.watch.relay.IsRunning) (move : WatchMove)
    (st : σ) :
    ¬ ((v.move move).run st).1.watch.relay.IsRunning ∧
      ((v.move move).run st).1.received ++ ((v.move move).run st).1.watch.relay.channel.queue <+:
        v.received ++ v.watch.relay.channel.queue := by
  cases move with
  | relay level =>
    have hRelay : ((v.move (.relay level)).run st).1.watch.relay = v.watch.relay ∨
        ((v.move (.relay level)).run st).1.watch.relay = v.watch.relay.finish :=
      Watch.relay_stepAt_of_over hOver level st
    have hReceived : ((v.move (.relay level)).run st).1.received = v.received := rfl
    rw [hReceived]
    rcases hRelay with hRelay | hRelay
    · rw [hRelay]
      exact ⟨hOver, List.prefix_refl _⟩
    · rw [hRelay]
      exact ⟨fun hRunning => hOver hRunning.of_finish, List.prefix_refl _⟩
  | receive =>
    rcases v.watch.relay.channel.receive_cases with
      ⟨e, rest, hQueue, hRun⟩ | ⟨delivery, hQueue, hNone, hRun⟩
    · simp only [move, Watch.receive, hRun, run_pure, Watch.relay_withRelay]
      refine ⟨fun hRunning => hOver (hRunning.congr rfl rfl), ?_⟩
      rw [hQueue, List.append_assoc]
      exact List.prefix_refl _
    · simp only [move, Watch.receive, hRun, run_pure, Watch.relay_withRelay, hNone,
        Option.toList_none, List.append_nil]
      exact ⟨hOver, List.prefix_refl _⟩
  | stop =>
    simp only [move, Watch.stop, run_pure, Watch.relay_withRelay]
    exact ⟨fun hRunning => absurd hRunning.isOpen Bool.false_ne_true, List.prefix_refl _⟩
  | drop =>
    simp only [move, Watch.drop, run_pure, Watch.relay_withRelay]
    refine ⟨fun hRunning => absurd hRunning.isOpen Bool.false_ne_true, ?_⟩
    exact (List.append_nil v.received).symm ▸ List.prefix_append ..

end Watching

end Tenancy
