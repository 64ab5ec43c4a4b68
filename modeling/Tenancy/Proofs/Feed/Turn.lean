import Tenancy.Proofs.Feed.Passage

/-!
# Watches in the course of time

A watch is run by turns: a relay or the consumer makes a move, or the state around the watch changes
for reasons of its own.

* `FeedTurn.received_after_stop`, `FeedTurn.received_after_drop`: what the consumer receives after
  it has ended the watch.
* `FeedTurn.isOpen_runAll`: nobody but the consumer ends a watch.
-/

namespace Tenancy

variable {σ α : Type}

/-- A relay or the consumer of a watch makes a move, or the state around it changes. -/
inductive FeedTurn (σ : Type) where
  | watch (move : WatchMove)
  | elsewhere (change : σ → σ)

namespace FeedTurn

def run (now : Watching σ α × σ) : FeedTurn σ → Watching σ α × σ
  | .watch move => (now.1.move move).run now.2
  | .elsewhere change => (now.1, change now.2)

def runAll (turns : List (FeedTurn σ)) (now : Watching σ α × σ) : Watching σ α × σ :=
  turns.foldl run now

theorem runAll_append (first second : List (FeedTurn σ)) (now : Watching σ α × σ) :
    runAll (first ++ second) now = runAll second (runAll first now) :=
  List.foldl_append

def ends : FeedTurn σ → Bool
  | .watch move => move.ends
  | .elsewhere _ => false

/-- Once the last relay is not running, the consumer receives at most what the channel holds. -/
theorem over_run {now : Watching σ α × σ} (hOver : ¬ now.1.watch.relay.IsRunning)
    (turn : FeedTurn σ) :
    ¬ (turn.run now).1.watch.relay.IsRunning ∧
      (turn.run now).1.received ++ (turn.run now).1.watch.relay.channel.queue <+:
        now.1.received ++ now.1.watch.relay.channel.queue := by
  cases turn with
  | watch move => exact Watching.over_move hOver move now.2
  | elsewhere change => exact ⟨hOver, List.prefix_refl _⟩

theorem over_runAll {now : Watching σ α × σ} (hOver : ¬ now.1.watch.relay.IsRunning)
    (turns : List (FeedTurn σ)) :
    (runAll turns now).1.received <+: now.1.received ++ now.1.watch.relay.channel.queue := by
  induction turns generalizing now with
  | nil => exact List.prefix_append ..
  | cons turn turns ih =>
    obtain ⟨hStill, hLess⟩ := over_run hOver turn
    exact (ih hStill).trans hLess

theorem received_prefix_runAll (turns : List (FeedTurn σ)) (now : Watching σ α × σ) :
    now.1.received <+: (runAll turns now).1.received := by
  induction turns generalizing now with
  | nil => exact List.prefix_refl _
  | cons turn turns ih =>
    refine List.IsPrefix.trans ?_ (ih (turn.run now))
    cases turn with
    | watch move => exact now.1.received_prefix_move move now.2
    | elsewhere change => exact List.prefix_refl _

/-- After it has stopped the watch, the consumer receives at most what the channel held. -/
theorem received_after_stop (now : Watching σ α × σ) (turns : List (FeedTurn σ)) :
    (runAll (.watch .stop :: turns) now).1.received <+:
      now.1.received ++ now.1.watch.relay.channel.queue := by
  have hStopped : (run now (.watch .stop)).1.watch.relay =
      { now.1.watch.relay with channel := now.1.watch.relay.channel.stop } :=
    Watch.relay_withRelay ..
  have hOver : ¬ (run now (.watch .stop)).1.watch.relay.IsRunning := fun hRunning => by
    rw [hStopped] at hRunning
    exact absurd hRunning.isOpen Bool.false_ne_true
  have hLess := over_runAll hOver turns
  rw [hStopped] at hLess
  exact hLess

/-- After it has dropped the watch, the consumer receives nothing. -/
theorem received_after_drop (now : Watching σ α × σ) (turns : List (FeedTurn σ)) :
    (runAll (.watch .drop :: turns) now).1.received = now.1.received := by
  have hDropped : (run now (.watch .drop)).1.watch.relay =
      { now.1.watch.relay with channel := now.1.watch.relay.channel.drop } :=
    Watch.relay_withRelay ..
  have hOver : ¬ (run now (.watch .drop)).1.watch.relay.IsRunning := fun hRunning => by
    rw [hDropped] at hRunning
    exact absurd hRunning.isOpen Bool.false_ne_true
  have hLess := over_runAll hOver turns
  have hMore := received_prefix_runAll turns (run now (.watch .drop))
  have hEmpty : (run now (.watch .drop)).1.watch.relay.channel.queue = [] := by
    rw [hDropped]
    rfl
  rw [hEmpty, List.append_nil] at hLess
  exact hLess.eq_of_length_le hMore.length_le

end FeedTurn

/-! ## Open watches -/

namespace Watch

variable {w : Watch (StateM σ) α}

/-- No step of a relay closes its channel. -/
theorem isOpen_step (w : Watch (StateM σ) α) (st : σ) :
    (w.step.run st).1.2.relay.channel.isOpen = w.relay.channel.isOpen := by
  have hOutcome := w.step_outcome st
  have hTaken := w.relay_take st
  generalize w.step.run st = outcome at hOutcome
  cases hOutcome with
  | done => rfl
  | cancelled => rw [relay_finish]; rfl
  | blocked => rfl
  | delivered e hRunning _ hRoom _ =>
    rw [relay_withRelay, Relay.channel_deliver hRunning hRoom]
  | deliveredLast e hRunning _ hRoom _ =>
    rw [relay_finish, relay_withRelay, Relay.finish, Relay.channel_deliver hRunning hRoom]
    rfl
  | held e w' t _ _ hTake => rw [relay_withRelay]; rfl
  | skipped e w' t _ _ hTake => rw [hTake] at hTaken; rw [hTaken]
  | heldLast e w' t _ _ hTake => rw [relay_withRelay]; rfl
  | waiting w' t _ _ hTake => rw [hTake] at hTaken; rw [hTaken]
  | ended w' t _ _ hTake => rw [hTake] at hTaken; rw [relay_finish, hTaken]; rfl

/-- Without an event to receive, nothing is in the channel. -/
theorem queue_eq_nil (hNone : w.receive.1.event? = none) : w.relay.channel.queue = [] := by
  rcases w.relay.channel.receive_cases with ⟨e, rest, -, hRun⟩ | ⟨delivery, hQueue, -, -⟩
  · rw [receive, hRun] at hNone
    cases hNone
  · exact hQueue

theorem length_receive {e : Event α} (hReceive : w.receive.1 = .event e) :
    w.relay.channel.queue.length = w.receive.2.relay.channel.queue.length + 1 := by
  rcases w.relay.channel.receive_cases with ⟨_, rest, hQueue, hRun⟩ | ⟨_, -, hNone, hRun⟩
  · rw [receive, hRun, relay_withRelay, hQueue]
    rfl
  · rw [receive, hRun] at hReceive
    obtain rfl := hReceive
    cases hNone

end Watch

namespace FeedTurn

theorem isOpen_run (now : Watching σ α × σ) {turn : FeedTurn σ} (hGoesOn : turn.ends = false) :
    (turn.run now).1.watch.relay.channel.isOpen = now.1.watch.relay.channel.isOpen := by
  match turn with
  | .elsewhere change => rfl
  | .watch (.relay level) =>
    by_cases hLevel : now.1.watch.depth = level
    · have hStep := now.1.watch.isOpen_step now.2
      rw [← Watch.stepAt_depth, hLevel] at hStep
      exact hStep
    · rcases now with ⟨⟨watch, received⟩, st⟩
      cases watch with
      | relayed source r =>
        rw [run, Watching.move, Watch.stepAt, if_neg hLevel]
        rfl
      | filtered inner test r =>
        rw [run, Watching.move_before hLevel]
        rfl
  | .watch .receive =>
    rcases now.1.watch.relay.channel.receive_cases with ⟨e, rest, -, hRun⟩ | ⟨_, -, -, hRun⟩ <;>
      simp only [run, Watching.move, Watch.receive, hRun, run_pure, Watch.relay_withRelay]

/-- Unless the consumer ends it, a watch stays open. -/
theorem isOpen_runAll {turns : List (FeedTurn σ)} (hGoesOn : ∀ turn ∈ turns, turn.ends = false)
    (now : Watching σ α × σ) :
    (runAll turns now).1.watch.relay.channel.isOpen = now.1.watch.relay.channel.isOpen := by
  induction turns generalizing now with
  | nil => rfl
  | cons turn turns ih =>
    obtain ⟨hTurn, hRest⟩ := List.forall_mem_cons.1 hGoesOn
    exact (ih hRest _).trans (isOpen_run now hTurn)

end FeedTurn

end Tenancy
