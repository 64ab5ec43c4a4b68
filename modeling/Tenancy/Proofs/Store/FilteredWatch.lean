import Tenancy.Proofs.Feed.Screening
import Tenancy.Proofs.Store.WatchStream

/-!
# Watches of a store behind a filter

A filter whose test leaves the container alone is the consumer of a watch of a store.  What it has
handled is then a beginning of the sequence of the feed, and all of it once every relay waits.

* `Attends.run`: what is true of the filter, and of the watch before it, under all that can happen.
* `Attends.complete`: where the filter stands when every relay waits.
* `Lively.settles`: a watch that has not fallen behind can be run until every relay waits.
-/

namespace Tenancy

variable {σ α : Type}

/-! ## Waiting -/

/-- The last relay of the watch is running, and waits for its source with nothing in hand. -/
structure Watch.IsIdle (w : Watch (StateM σ) α) (st : σ) : Prop where
  isRunning : w.relay.IsRunning
  inHand : w.relay.inHand = none
  waits : (w.step.run st).1.1 = false

instance (r : Relay α) : Decidable r.IsRunning :=
  decidable_of_iff (r.isDone = false ∧ r.channel.isOpen = true)
    ⟨fun h => ⟨h.1, h.2⟩, fun h => ⟨h.1, h.2⟩⟩

instance (w : Watch (StateM σ) α) (st : σ) : Decidable (w.IsIdle st) :=
  decidable_of_iff
    (w.relay.IsRunning ∧ w.relay.inHand.isNone = true ∧ (w.step.run st).1.1 = false)
    ⟨fun h => ⟨h.1, Option.isNone_iff_eq_none.1 h.2.1, h.2.2⟩,
      fun h => ⟨h.1, Option.isNone_iff_eq_none.2 h.2, h.3⟩⟩

/-- Every relay of the watch waits.  None has ended, and none has an event for which there is no
room. -/
def Watch.Waits (st : σ) : Watch (StateM σ) α → Prop
  | .relayed source r => (Watch.relayed source r).IsIdle st
  | .filtered inner test r => inner.Waits st ∧ (Watch.filtered inner test r).IsIdle st

instance Watch.decidableWaits (st : σ) : (w : Watch (StateM σ) α) → Decidable (w.Waits st)
  | .relayed source r => inferInstanceAs (Decidable ((Watch.relayed source r).IsIdle st))
  | .filtered inner test r =>
    have := decidableWaits st inner
    inferInstanceAs (Decidable (inner.Waits st ∧ (Watch.filtered inner test r).IsIdle st))

namespace Watch

variable {w inner : Watch (StateM σ) α} {st : σ}

theorem Waits.isIdle (h : w.Waits st) : w.IsIdle st := by
  cases w with
  | relayed source r => exact h
  | filtered inner test r => exact h.2

theorem IsIdle.take (h : w.IsIdle st) : ∃ w' t, w.take.run st = ((.pending, w'), t) := by
  have hOutcome := w.step_outcome st
  have hWaits := h.waits
  generalize w.step.run st = outcome at hOutcome hWaits
  cases hOutcome with
  | done hDone => exact absurd (h.isRunning.notDone.symm.trans hDone) Bool.false_ne_true
  | blocked e _ hHand => exact absurd (h.inHand.symm.trans hHand) nofun
  | waiting w' t _ _ hTake => exact ⟨w', t, hTake⟩
  | _ => cases hWaits

/-- A relay that gets nowhere is idle if there is room in its channel. -/
theorem isIdle_of_room (hRunning : w.relay.IsRunning) (hRoom : w.relay.channel.room ≠ 0)
    (hWaits : (w.step.run st).1.1 = false) : w.IsIdle st := by
  refine ⟨hRunning, ?_, hWaits⟩
  have hOutcome := w.step_outcome st
  generalize w.step.run st = outcome at hOutcome hWaits
  cases hOutcome with
  | done hDone => exact absurd (hRunning.notDone.symm.trans hDone) Bool.false_ne_true
  | blocked _ _ _ hFull => exact absurd hFull hRoom
  | waiting _ _ _ hHand => exact hHand
  | _ => cases hWaits

/-- A filter that is idle has left nothing before it. -/
theorem IsIdle.queue_before {test : Event α → StateM σ Bool} {r : Relay α}
    (h : (Watch.filtered inner test r).IsIdle st) : inner.relay.channel.queue = [] := by
  obtain ⟨w', t, hTake⟩ := h.take
  obtain ⟨-, -, ⟨_, hEvent, -⟩ | ⟨-, hNone⟩⟩ := Watch.take_filtered hTake
  · cases hEvent
  · exact queue_eq_nil hNone

end Watch

/-! ## The filter as a consumer -/

/-- The container `c` comes to be `c'` by some steps that leave the feed to its watch. -/
def MemoryContainer.Becomes (feed : Nat) (c c' : MemoryContainer) : Prop :=
  ∃ steps : List ContainerStep, (∀ step ∈ steps, Turn.Spares feed (.other step)) ∧
    c' = ContainerStep.runAll steps c

theorem MemoryContainer.Becomes.refl (feed : Nat) (c : MemoryContainer) : c.Becomes feed c :=
  ⟨[], List.forall_mem_nil _, rfl⟩

def FeedTurn.Spares (p : Part σ MemoryContainer) (feed : Nat) : FeedTurn σ → Prop
  | .watch _ => True
  | .elsewhere change => ∀ st, (p.read st).Becomes feed (p.read (change st))

section

variable {s : BlobStore (StateM σ) α} {p : Part σ MemoryContainer} {feed : Nat}
  {initial : List (Event Entry)} {start : Nat} {behind : List (Event Entry) → Nat → Prop}
  {v : Watching σ (Resource α)} {st st' : σ} {now : Watching σ (Resource α) × σ}

theorem ChangeBus.Follows.steps {c : MemoryContainer} {received : List (Event Entry)}
    {cursor : Cursor Entry} (h : c.bus.Follows feed initial start received cursor)
    (hSound : c.Sound) {steps : List ContainerStep}
    (hSpares : ∀ step ∈ steps, Turn.Spares feed (.other step)) :
    (ContainerStep.runAll steps c).bus.Follows feed initial start received cursor := by
  induction steps generalizing c with
  | nil => exact h
  | cons step steps ih =>
    obtain ⟨hStep, hRest⟩ := List.forall_mem_cons.1 hSpares
    exact ih (h.step hSound hStep) (ContainerStep.grows_step hSound step).1 hRest

namespace IsWatching

theorem elsewhere (h : IsWatching s p feed initial start behind (v, st))
    (hBecomes : (p.read st).Becomes feed (p.read st')) :
    IsWatching s p feed initial start behind (v, st') := by
  obtain ⟨steps, hSpares, hSteps⟩ := hBecomes
  obtain ⟨r, hWatch, hSenders, hCapacity, hPhase⟩ := h.relay
  obtain ⟨hSound, hStarted⟩ := sound_steps h.sound h.started steps hSteps
  obtain ⟨-, events, hGrows⟩ := ContainerStep.grows_run h.sound steps
  refine ⟨hSound, hStarted, r, hWatch, hSenders, hCapacity, hPhase.elsewhere (fun _ _ hMissed =>
    hMissed) (feedSequence_grows h.started (hSteps ▸ hGrows)) fun taken cursor hFollows => ?_⟩
  rw [hSteps]
  exact hFollows.steps h.sound hSpares

theorem run (h : IsWatching s p feed initial start (fun _ _ => True) now)
    {turns : List (FeedTurn σ)} (hSpares : ∀ turn ∈ turns, turn.Spares p feed) :
    IsWatching s p feed initial start (fun _ _ => True) (FeedTurn.runAll turns now) := by
  induction turns generalizing now with
  | nil => exact h
  | cons turn turns ih =>
    obtain ⟨hTurn, hRest⟩ := List.forall_mem_cons.1 hSpares
    refine ih ?_ hRest
    cases turn with
    | watch move =>
      have hMove : IsWatching s p feed initial start (fun _ _ => True)
          (WatchTurn.run p now (.watch move)) := h.turn trivial fun _ _ _ => trivial
      exact hMove
    | elsewhere change => exact h.elsewhere (hTurn now.2)

end IsWatching

/-- The watch is one of the store behind a filter that has handled `handled`. -/
def Attends (s : BlobStore (StateM σ) α) (p : Part σ MemoryContainer) (feed : Nat)
    (initial : List (Event Entry)) (start : Nat) (test : Event (Resource α) → StateM σ Bool)
    (handled : List (Event (Resource α) × σ)) (now : Watching σ (Resource α) × σ) : Prop :=
  ∃ inner r, now.1.watch = .filtered inner test r ∧
    Screens test handled inner r now.1.received ∧
    IsWatching s p feed initial start (fun _ _ => True) (⟨inner, handled.map Prod.fst⟩, now.2)

namespace Attends

variable {test : Event (Resource α) → StateM σ Bool} {handled : List (Event (Resource α) × σ)}

/-- Whatever happens, the filter has handled what it has received from the watch of the store. -/
theorem run (h : Attends s p feed initial start test handled now)
    (hTest : ∀ e st, p.read ((test e).run st).2 = p.read st) {turns : List (FeedTurn σ)}
    (hSpares : ∀ turn ∈ turns, turn.Spares p feed) :
    Attends s p feed initial start test (handled ++ FeedTurn.handled turns now)
      (FeedTurn.runAll turns now) := by
  obtain ⟨inner, r, hWatch, hScreens, hWatching⟩ := h
  obtain ⟨⟨watch, received⟩, st⟩ := now
  obtain rfl : watch = .filtered inner test r := hWatch
  have hRun := hScreens.run turns st
  generalize FeedTurn.handled turns (⟨.filtered inner test r, received⟩, st) = new at hRun
  generalize FeedTurn.runAll turns (⟨.filtered inner test r, received⟩, st) = later at hRun
  obtain ⟨inner', r', received', st', before, hLater, hBefore, hConsumes⟩ := hRun
  have hRead : ∀ b ∈ before, b.Spares p feed := fun b hMem => by
    rcases hBefore b hMem with hFilter | hTurn
    · cases hFilter with
      | watch move => trivial
      | test e =>
        intro st
        rw [hTest e st]
        exact .refl feed _
    · exact hSpares b hTurn
  have hEnd := hWatching.run hRead
  dsimp only at hEnd
  rw [hConsumes, ← List.map_append] at hEnd
  exact ⟨inner', r', rfl, hLater, hEnd⟩

/-- When every relay waits, the filter has handled the whole sequence of the feed, and has given on
all that has passed. -/
theorem complete (h : Attends s p feed initial start test handled now)
    (hWaits : now.1.watch.Waits now.2) :
    now.1.received ++ now.1.watch.relay.channel.queue = passed test handled ∧
      handled.map Prod.fst = (feedSequence p initial start now.2).map s.shown := by
  obtain ⟨inner, r, hWatch, hScreens, hWatching⟩ := h
  obtain ⟨⟨watch, received⟩, st⟩ := now
  obtain rfl : watch = .filtered inner test r := hWatch
  obtain ⟨hInner, hIdle⟩ := hWaits
  refine ⟨?_, hWatching.complete hInner.isIdle.isRunning hInner.isIdle.waits hIdle.queue_before⟩
  have hHand : r.inHand = none := hIdle.inHand
  have hAll := hScreens.all hIdle.isRunning.isOpen
  rw [Relay.held_of_empty hHand] at hAll
  exact hAll

end Attends

end

/-! ## What is left alone -/

section

variable {β ν : Type} {view : σ → ν} {x : ν} {st : σ}

/-- The turn leaves a part of the state alone. -/
def FeedTurn.Keeps (view : σ → ν) : FeedTurn σ → Prop
  | .watch _ => True
  | .elsewhere change => ∀ st, view (change st) = view st

/-- A state is the same as itself, as long as the part is `x`.  What respects this leaves the part
alone. -/
def Only (view : σ → ν) (x : ν) (st st' : σ) : Prop := st = st' ∧ view st = x

theorem respects_only {f : σ → β × σ} (hKeeps : ∀ st, view (f st).2 = view st) :
    Respects (Only view x) f := by
  rintro st _ ⟨rfl, hView⟩
  exact ⟨rfl, rfl, (hKeeps st).trans hView⟩

theorem Watching.keeps_move {v : Watching σ α} (h : v.watch.Respects (Only view x))
    (hView : view st = x) (move : WatchMove) :
    ((v.move move).run st).1.watch.Respects (Only view x) ∧
      view ((v.move move).run st).2 = x := by
  cases move with
  | relay level =>
    obtain ⟨hStep, hAfter⟩ := h.stepAt level
    exact ⟨hAfter st, (hStep st st ⟨rfl, hView⟩).2.2⟩
  | receive => exact ⟨h.receive, hView⟩
  | stop => exact ⟨Watch.respects_withRelay.2 h, hView⟩
  | drop => exact ⟨Watch.respects_withRelay.2 h, hView⟩

/-- An event that is handled by a move is handled in the state of the move. -/
theorem Watch.handled_now {w : Watch (StateM σ) α} {move : WatchMove} {e : Event α × σ}
    (hMem : e ∈ w.handles st move) : e.2 = st := by
  cases move with
  | relay level =>
    cases w with
    | relayed source r => cases hMem
    | filtered inner test r =>
      rw [handles] at hMem
      split at hMem
      · obtain ⟨_, -, rfl⟩ := List.mem_map.1 hMem
        rfl
      · cases hMem
  | receive => cases hMem
  | stop => cases hMem
  | drop => cases hMem

/-- As long as a part of the state is left alone, events are handled in states that have it. -/
theorem FeedTurn.view_handled {turns : List (FeedTurn σ)} (now : Watching σ α × σ)
    (h : now.1.watch.Respects (Only view x)) (hView : view now.2 = x)
    (hKeeps : ∀ turn ∈ turns, turn.Keeps view) :
    (∀ e ∈ handled turns now, view e.2 = x) ∧ view (runAll turns now).2 = x := by
  induction turns generalizing now with
  | nil => exact ⟨List.forall_mem_nil _, hView⟩
  | cons turn turns ih =>
    obtain ⟨hTurn, hRest⟩ := List.forall_mem_cons.1 hKeeps
    have hNow : ∀ e ∈ turn.handles now, view e.2 = x := fun e hMem => by
      cases turn with
      | watch move => rwa [Watch.handled_now hMem]
      | elsewhere change => cases hMem
    have hNext : (turn.run now).1.watch.Respects (Only view x) ∧ view (turn.run now).2 = x := by
      cases turn with
      | watch move => exact now.1.keeps_move h hView move
      | elsewhere change => exact ⟨h, (hTurn now.2).trans hView⟩
    obtain ⟨hLater, hEnd⟩ := ih _ hNext.1 hNext.2 hRest
    refine ⟨fun e hMem => ?_, hEnd⟩
    exact (List.mem_append.1 hMem).elim (hNow e) (hLater e)

end

section

variable {s : BlobStore (StateM σ) α} {p : Part σ MemoryContainer} {feed : Nat}
  {initial : List (Event Entry)} {start : Nat} {now : Watching σ (Resource α) × σ} {st : σ}
  {test : Event (Resource α) → StateM σ Bool} {handled : List (Event (Resource α) × σ)}

/-- Of a part of the state that neither the feed nor the test writes to. -/
theorem Attends.respects (h : Attends s p feed initial start test handled now) {ν : Type}
    {view : σ → ν} {x : ν} (hTake : ∀ st, view (afterTake p feed st) = view st)
    (hCancel : ∀ st, view (afterCancel p feed st) = view st)
    (hTest : ∀ e st, view ((test e).run st).2 = view st) :
    now.1.watch.Respects (Only view x) := by
  obtain ⟨inner, r, hWatch, -, hWatching⟩ := h
  obtain ⟨r₀, hInner, -⟩ := hWatching.relay
  obtain rfl : inner = .relayed (s.feedSource p feed) r₀ := hInner
  rw [hWatch]
  exact ⟨⟨respects_only hTake, respects_only hCancel⟩, fun e => respects_only (hTest e)⟩

/-- A watch waits, and then something happens in the container.  When the watch waits again, it has
given on what has been published, as far as it has passed the test; and if nothing else has happened
to a part of the state, it has been tested in states with this part. -/
theorem Attends.passes_on (h : Attends s p feed initial start test handled now)
    (hTest : ∀ e st, p.read ((test e).run st).2 = p.read st) (hWaits : now.1.watch.Waits now.2)
    (hBecomes : (p.read now.2).Becomes feed (p.read st)) {events : List (Event Entry)}
    (hLog : (p.read st).bus.log.toList = (p.read now.2).bus.log.toList ++ events)
    {ν : Type} {view : σ → ν} (hView : ∀ st st', view st = view st' →
      (p.read st).bus.log = (p.read st').bus.log)
    (hWatch : now.1.watch.Respects (Only view (view st))) {tasks : List (FeedTurn σ)}
    (hTasks : ∀ task ∈ tasks, task.Spares p feed ∧ task.Keeps view) :
    let later := FeedTurn.runAll tasks (now.1, st)
    later.1.watch.Waits later.2 →
      ∃ new, new.map Prod.fst = events.map s.shown ∧ (∀ e ∈ new, view e.2 = view st) ∧
        later.1.received ++ later.1.watch.relay.channel.queue =
          now.1.received ++ now.1.watch.relay.channel.queue ++ passed test new := by
  intro later hRest
  obtain ⟨hGiven, hHandled⟩ := h.complete hWaits
  have hStart : start ≤ (p.read now.2).bus.published := by
    obtain ⟨_, _, _, _, hWatching⟩ := h
    exact hWatching.started
  have hChanged : Attends s p feed initial start test handled (now.1, st) := by
    obtain ⟨inner, r, hFilter, hScreens, hWatching⟩ := h
    exact ⟨inner, r, hFilter, hScreens, hWatching.elsewhere hBecomes⟩
  obtain ⟨hSeen, hEnd⟩ := FeedTurn.view_handled (now.1, st) hWatch rfl fun task hMem =>
    (hTasks task hMem).2
  obtain ⟨hLater, hAll⟩ :=
    (hChanged.run hTest fun task hMem => (hTasks task hMem).1).complete hRest
  refine ⟨FeedTurn.handled tasks (now.1, st), ?_, hSeen, ?_⟩
  · have hSequence : feedSequence p initial start later.2 =
        feedSequence p initial start now.2 ++ events := by
      rw [feedSequence, feedSequence, ChangeBus.publishedSince, hView _ _ hEnd, hLog,
        List.drop_append_of_le_length hStart, List.append_assoc]
      rfl
    rw [List.map_append, hSequence, List.map_append, hHandled] at hAll
    exact List.append_cancel_left hAll
  · rw [hLater, passed_append, hGiven]

end

/-! ## Coming to rest -/

theorem FeedTurn.runAll_watch (moves : List WatchMove) (now : Watching σ α × σ) :
    runAll (moves.map .watch) now = Watching.moveAll moves now := List.foldl_map

/-- The watch can be run, without being ended, until every relay waits and the consumer has received
everything. -/
def Settles (now : Watching σ α × σ) : Prop :=
  ∃ moves : List WatchMove, (∀ move ∈ moves, move.ends = false) ∧
    (Watching.moveAll moves now).1.watch.Waits (Watching.moveAll moves now).2 ∧
    (Watching.moveAll moves now).1.watch.relay.channel.queue = []

theorem Settles.cons {now : Watching σ α × σ} (move : WatchMove) (hGoesOn : move.ends = false)
    (h : Settles ((now.1.move move).run now.2)) : Settles now := by
  obtain ⟨moves, hMoves, hEnd⟩ := h
  exact ⟨move :: moves, List.forall_mem_cons.2 ⟨hGoesOn, hMoves⟩, hEnd⟩

/-- A filter does not end as long as the relay before it is running. -/
theorem Watch.not_ended {inner w : Watch (StateM σ) α} {test : Event α → StateM σ Bool}
    {r : Relay α} {st t : σ} (hRunning : inner.relay.IsRunning)
    (hTake : (Watch.filtered inner test r).take.run st = ((.ended, w), t)) : False := by
  have hSenders : inner.relay.channel.senders ≠ 0 := of_decide_eq_false hRunning.notDone
  rw [Watch.take, Watch.receive] at hTake
  rcases inner.relay.channel.receive_cases with ⟨e, rest, -, hRun⟩ | ⟨delivery, hQueue, -, hRun⟩
  · rw [hRun] at hTake
    cases hTake
  · have hPending : Channel.receive.run inner.relay.channel =
        (.pending, inner.relay.channel) := by
      simp only [Channel.receive, StateT.run, hQueue, hSenders, hRunning.isOpen, decide_false,
        Bool.not_true, Bool.or_self, Bool.false_eq_true, if_false]
    rw [hPending] at hTake
    cases hTake

section

variable {s : BlobStore (StateM σ) α} {p : Part σ MemoryContainer} {feed pending : Nat}
  {test : Event (Resource α) → StateM σ Bool} {r r₀ : Relay (Resource α)} {st : σ}
  {received : List (Event (Resource α))} {now : Watching σ (Resource α) × σ}

structure KeepsUp (p : Part σ MemoryContainer) (feed pending : Nat) (r : Relay (Resource α))
    (st : σ) : Prop where
  isRunning : r.IsRunning
  capacity : 0 < r.channel.capacity
  notLast : r.inHand = none ∨ r.isLast = false
  awaits : (p.read st).bus.Awaits feed pending

namespace KeepsUp

/-- What a relay holds and what its feed has for it, each event by the steps that it takes. -/
def load (pending : Nat) (r : Relay (Resource α)) : Nat :=
  5 * pending + 4 * r.inHand.toList.length + 3 * r.channel.queue.length

theorem congr (h : KeepsUp p feed pending r st) {st' : σ} (hRead : p.read st' = p.read st) :
    KeepsUp p feed pending r st' :=
  ⟨h.isRunning, h.capacity, h.notLast, hRead ▸ h.awaits⟩

theorem step (h : KeepsUp p feed pending r st)
    (hMoves : ((Watch.relayed (s.feedSource p feed) r).step.run st).1.1 = true) :
    ∃ r' n, ((Watch.relayed (s.feedSource p feed) r).step.run st).1.2 =
        .relayed (s.feedSource p feed) r' ∧
      KeepsUp p feed n r' ((Watch.relayed (s.feedSource p feed) r).step.run st).2 ∧
      load n r' < load pending r := by
  have hOutcome : Watch.StepOutcome (.relayed (s.feedSource p feed) r) r st _ :=
    Watch.step_outcome _ st
  have hReceive := h.awaits.receive
  generalize (Watch.relayed (s.feedSource p feed) r).step.run st = outcome at hOutcome hMoves
  cases hOutcome with
  | cancelled _ hClosed =>
    exact absurd (hClosed.symm.trans h.isRunning.isOpen) Bool.false_ne_true
  | delivered e hRunning hHand hRoom _ =>
    have hChannel : (r.deliver e).channel = _ := Relay.channel_deliver hRunning hRoom
    have hEmptied : (r.deliver e).inHand = none := rfl
    refine ⟨r.deliver e, pending, rfl,
      ⟨hRunning.deliver hRoom, ?_, .inl hEmptied, h.awaits⟩, ?_⟩
    · rw [hChannel]
      exact h.capacity
    · simp only [load, hChannel, hEmptied, hHand, List.length_append, Option.toList_none,
        Option.toList_some, List.length_nil, List.length_singleton]
      omega
  | deliveredLast e _ hHand _ hLast =>
    rcases h.notLast with hNone | hMore
    · cases hNone.symm.trans hHand
    · exact absurd (hMore.symm.trans hLast) Bool.false_ne_true
  | held e w t hRunning hHand hTake _ =>
    obtain ⟨hTaken, rfl, rfl⟩ := take_eq hTake
    obtain ⟨next, hReceipt, rfl⟩ := BlobStore.taken_eq_event hTaken
    rcases hReceive with ⟨e, n, hMore, -, hAwaits⟩ | ⟨-, hNone⟩
    · refine ⟨r.hold (s.shown next) false, n, rfl,
        ⟨hRunning.congr rfl rfl, h.capacity, .inr rfl, ?_⟩, ?_⟩
      · have hRead : p.read (afterTake p feed st) = _ := p.read_write _ st
        exact hRead ▸ hAwaits
      · simp only [load, Relay.hold, hHand, Option.toList_none, Option.toList_some, List.length_nil,
          List.length_singleton]
        omega
    · cases hReceipt.symm.trans hNone
  | skipped _ _ _ _ _ hTake hPasses =>
    obtain ⟨-, rfl, -⟩ := take_eq hTake
    cases hPasses
  | heldLast e w t _ _ hTake =>
    obtain ⟨hTaken, -, -⟩ := take_eq hTake
    obtain ⟨missed, hReceipt, -⟩ := BlobStore.taken_eq_last hTaken
    rcases hReceive with ⟨e, n, -, hEvent, -⟩ | ⟨-, hNone⟩
    · cases hReceipt.symm.trans hEvent
    · cases hReceipt.symm.trans hNone
  | ended w t _ _ hTake =>
    obtain ⟨hTaken, -, -⟩ := take_eq hTake
    rcases hReceive with ⟨e, n, -, hEvent, -⟩ | ⟨-, hNone⟩
    · rw [hEvent, s.taken_event] at hTaken
      cases hTaken
    · rw [hNone] at hTaken
      cases hTaken
  | _ => cases hMoves

/-- The filter takes an event from the relay. -/
theorem receive (h : KeepsUp p feed pending r st) {source : Source (StateM σ) (Resource α)}
    {e : Event (Resource α)} (hReceive : (Watch.relayed source r).receive.1 = .event e) :
    ∃ r', (Watch.relayed source r).receive.2 = .relayed source r' ∧
      KeepsUp p feed pending r' st ∧ load pending r = load pending r' + 3 := by
  rcases r.channel.receive_cases with ⟨_, rest, hQueue, hRun⟩ | ⟨_, -, hNone, hRun⟩
  · refine ⟨{ r with channel := { r.channel with queue := rest } }, ?_,
      ⟨h.isRunning.congr rfl rfl, h.capacity, h.notLast, h.awaits⟩, ?_⟩
    · rw [Watch.receive, Watch.relay, hRun]
      rfl
    · simp only [load, hQueue, List.length_cons]
      omega
  · rw [Watch.receive, Watch.relay, hRun] at hReceive
    obtain rfl := hReceive
    cases hNone

end KeepsUp

/-- A watch of a store behind a filter, both of which keep up, and the number of steps that they and
the consumer can make until nothing is left. -/
inductive Lively (s : BlobStore (StateM σ) α) (p : Part σ MemoryContainer) (feed : Nat)
    (test : Event (Resource α) → StateM σ Bool) : Nat → Watching σ (Resource α) × σ → Prop
  | intro (pending : Nat) (r₀ r : Relay (Resource α)) (received : List (Event (Resource α)))
      (st : σ) (hFeed : KeepsUp p feed pending r₀ st) (hRunning : r.IsRunning)
      (hCapacity : 0 < r.channel.capacity) (hLast : r.isLast = false) :
      Lively s p feed test
        (KeepsUp.load pending r₀ + 2 * r.inHand.toList.length + r.channel.queue.length)
        (⟨.filtered (.relayed (s.feedSource p feed) r₀) test r, received⟩, st)

namespace Lively

variable {load : Nat}

theorem receive {e : Event (Resource α)} {rest : List (Event (Resource α))}
    (hFeed : KeepsUp p feed pending r₀ st) (hRunning : r.IsRunning)
    (hCapacity : 0 < r.channel.capacity) (hLast : r.isLast = false)
    (hQueue : r.channel.queue = e :: rest) :
    Lively s p feed test
      (KeepsUp.load pending r₀ + 2 * r.inHand.toList.length + rest.length)
      ((Watching.move ⟨.filtered (.relayed (s.feedSource p feed) r₀) test r, received⟩
        .receive).run st) := by
  have hRun : Channel.receive.run r.channel = (.event e, { r.channel with queue := rest }) := by
    simp only [Channel.receive, StateT.run, hQueue]
  simp only [Watching.move, Watch.receive, Watch.relay, hRun, run_pure]
  exact .intro pending r₀ { r with channel := { r.channel with queue := rest } } _ st hFeed
    (hRunning.congr rfl rfl) hCapacity hLast

/-- A step of the filter that gets anywhere. -/
theorem filter (hTest : ∀ e st, p.read ((test e).run st).2 = p.read st)
    (hFeed : KeepsUp p feed pending r₀ st) (hRunning : r.IsRunning)
    (hCapacity : 0 < r.channel.capacity) (hLast : r.isLast = false)
    (hMoves : ((Watch.filtered (.relayed (s.feedSource p feed) r₀) test r).step.run st).1.1 =
      true) :
    let w := Watch.filtered (.relayed (s.feedSource p feed) r₀) test r
    ∃ n < KeepsUp.load pending r₀ + 2 * r.inHand.toList.length + r.channel.queue.length,
      Lively s p feed test n (⟨(w.step.run st).1.2, received⟩, (w.step.run st).2) := by
  intro w
  have hOutcome : Watch.StepOutcome w r st _ := Watch.step_outcome _ st
  generalize w.step.run st = outcome at hOutcome hMoves
  cases hOutcome with
  | cancelled _ hClosed =>
    exact absurd (hClosed.symm.trans hRunning.isOpen) Bool.false_ne_true
  | delivered e _ hHand hRoom _ =>
    have hChannel : (r.deliver e).channel = _ := Relay.channel_deliver hRunning hRoom
    have hEmptied : (r.deliver e).inHand = none := rfl
    refine ⟨_, ?_,
      .intro pending r₀ (r.deliver e) received st hFeed (hRunning.deliver hRoom) ?_ hLast⟩
    · simp only [hChannel, hEmptied, hHand, List.length_append, Option.toList_none,
        Option.toList_some, List.length_nil, List.length_singleton]
      omega
    · rw [hChannel]
      exact hCapacity
  | deliveredLast _ _ _ _ hIsLast => exact absurd (hLast.symm.trans hIsLast) Bool.false_ne_true
  | held e w' t _ hHand hTake =>
    obtain ⟨rfl, rfl, ⟨_, -, hReceive⟩ | ⟨hNone | hNone, -⟩⟩ := Watch.take_filtered hTake
    · obtain ⟨r₁, hInner, hKeeps, hLoad⟩ := hFeed.receive hReceive
      rw [hInner]
      refine ⟨_, ?_, .intro pending r₁ (r.hold e false) received _ (hKeeps.congr (hTest e t))
        (hRunning.congr rfl rfl) hCapacity rfl⟩
      simp only [Relay.hold, hHand, hLoad, Option.toList_none, Option.toList_some, List.length_nil,
        List.length_singleton]
      omega
    · cases hNone
    · cases hNone
  | skipped e w' t _ hHand hTake =>
    obtain ⟨rfl, rfl, ⟨_, -, hReceive⟩ | ⟨hNone | hNone, -⟩⟩ := Watch.take_filtered hTake
    · obtain ⟨r₁, hInner, hKeeps, hLoad⟩ := hFeed.receive hReceive
      rw [hInner]
      refine ⟨_, ?_, .intro pending r₁ r received _ (hKeeps.congr (hTest e t)) hRunning hCapacity
        hLast⟩
      omega
    · cases hNone
    · cases hNone
  | heldLast e w' t _ _ hTake =>
    obtain ⟨-, -, ⟨_, hEvent, -⟩ | ⟨hNone | hNone, -⟩⟩ := Watch.take_filtered hTake
    · cases hEvent
    · cases hNone
    · cases hNone
  | ended w' t _ _ hTake =>
    have hBefore : (Watch.relayed (s.feedSource p feed) r₀).relay.IsRunning := hFeed.isRunning
    exact (Watch.not_ended hBefore hTake).elim
  | _ => cases hMoves

/-- A step of the relay before the filter that gets anywhere. -/
theorem before (hFeed : KeepsUp p feed pending r₀ st) (hRunning : r.IsRunning)
    (hCapacity : 0 < r.channel.capacity) (hLast : r.isLast = false)
    (hMoves : ((Watch.relayed (s.feedSource p feed) r₀).step.run st).1.1 = true) :
    let w := Watch.relayed (s.feedSource p feed) r₀
    ∃ n < KeepsUp.load pending r₀ + 2 * r.inHand.toList.length + r.channel.queue.length,
      Lively s p feed test n
        (⟨.filtered (w.step.run st).1.2 test r, received⟩, (w.step.run st).2) := by
  intro w
  obtain ⟨r₁, n, hWatch, hKeeps, hLess⟩ := hFeed.step hMoves
  rw [hWatch]
  exact ⟨_, by omega, .intro n r₁ r received _ hKeeps hRunning hCapacity hLast⟩

/-- A watch that has not fallen behind settles. -/
theorem settles (hTest : ∀ e st, p.read ((test e).run st).2 = p.read st)
    (h : Lively s p feed test load now) : Settles now := by
  induction load using Nat.strongRecOn generalizing now with
  | ind load ih =>
    obtain ⟨pending, r₀, r, received, st, hFeed, hRunning, hCapacity, hLast⟩ := h
    rcases hQueue : r.channel.queue with _ | ⟨e, rest⟩
    · have hRoom : r.channel.room ≠ 0 := by
        rw [Channel.room, hQueue]
        exact Nat.sub_ne_zero_of_lt hCapacity
      cases hMoves :
        ((Watch.filtered (.relayed (s.feedSource p feed) r₀) test r).step.run st).1.1 with
      | true =>
        obtain ⟨n, hLess, hNext⟩ := filter hTest hFeed hRunning hCapacity hLast hMoves
        exact Settles.cons (.relay 1) rfl (ih n hLess hNext)
      | false =>
        have hIdle : (Watch.filtered (.relayed (s.feedSource p feed) r₀) test r).IsIdle st :=
          Watch.isIdle_of_room hRunning hRoom hMoves
        have hNothing : r₀.channel.queue = [] := hIdle.queue_before
        have hRoom₀ : r₀.channel.room ≠ 0 := by
          rw [Channel.room, hNothing]
          exact Nat.sub_ne_zero_of_lt hFeed.capacity
        cases hMoves₀ : ((Watch.relayed (s.feedSource p feed) r₀).step.run st).1.1 with
        | true =>
          obtain ⟨n, hLess, hNext⟩ := before hFeed hRunning hCapacity hLast hMoves₀
          exact Settles.cons (.relay 0) rfl (ih n hLess hNext)
        | false =>
          refine ⟨[], List.forall_mem_nil _, ⟨?_, hIdle⟩, hQueue⟩
          exact Watch.isIdle_of_room hFeed.isRunning hRoom₀ hMoves₀
    · refine Settles.cons .receive rfl (ih _ ?_ (receive hFeed hRunning hCapacity hLast hQueue))
      rw [hQueue, List.length_cons]
      omega

end Lively

/-- After one more event a watch that has been waiting settles. -/
theorem Attends.settles {initial : List (Event Entry)} {start : Nat}
    {handled : List (Event (Resource α) × σ)}
    (h : Attends s p feed initial start test handled now)
    (hTest : ∀ e st, p.read ((test e).run st).2 = p.read st) (hWaits : now.1.watch.Waits now.2)
    {e : Event Entry} (hBus : (p.read st).bus = (p.read now.2).bus.publish e) :
    Settles (now.1, st) := by
  obtain ⟨inner, r, hWatch, hScreens, hWatching⟩ := h
  obtain ⟨r₀, hInner, -, hCapacity, hPhase⟩ := hWatching.relay
  obtain ⟨⟨watch, received⟩, st₀⟩ := now
  obtain rfl : watch = .filtered inner test r := hWatch
  obtain rfl : inner = .relayed (s.feedSource p feed) r₀ := hInner
  obtain ⟨hBefore, hIdle⟩ := hWaits
  have hIdle₀ : (Watch.relayed (s.feedSource p feed) r₀).IsIdle st₀ := hBefore
  have hHand : r₀.inHand = none := hIdle₀.inHand
  obtain ⟨w, t, hTake⟩ := hIdle₀.take
  have hPending := BlobStore.taken_eq_pending (take_eq hTake).1
  cases hPhase with
  | following taken cursor hRunning hFollows =>
    have hAwaits := (ChangeBus.Awaits.of_pending hFollows hPending).publish e
      (ChangeBus.held_pos _)
    rw [← hBus] at hAwaits
    have hLively : Lively s p feed test _ (⟨.filtered (.relayed (s.feedSource p feed) r₀) test r,
        received⟩, st) := .intro 1 r₀ r received st ⟨hRunning, hCapacity, .inl hHand, hAwaits⟩
      hIdle.isRunning hScreens.capacity hScreens.notLast
    exact hLively.settles hTest
  | expiring _ _ _ _ _ hExpired => exact absurd (hExpired.symm.trans hHand) nofun
  | gone _ _ hOver => exact absurd hIdle₀.isRunning hOver

end

end Tenancy
