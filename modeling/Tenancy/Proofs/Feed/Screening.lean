import Tenancy.Proofs.Feed.Turn

/-!
# Watches behind a filter

A filter takes the events of a watch as any consumer would, and gives on those that pass its test.
The test may answer differently each time, so what the filter has taken is told with the states in
which it was tested (`FeedTurn.handled`).  As long as the consumer is there, what has been received
and what the relay of the filter holds are together exactly what has passed.

* `Screens.turn`, `Screens.run`: what a turn or a run does to a watch behind a filter, and to the
  watch before it.
* `Screens.complete`: a filter that waits with an empty channel has given on all that has passed.
-/

namespace Tenancy

variable {σ α : Type}

/-! ## What a filter handles -/

namespace Relay

variable {r : Relay α}

/-- The next step of the relay begins with taking an event. -/
def isReady (r : Relay α) : Bool := !r.isDone && r.channel.isOpen && r.inHand.isNone

theorem isReady_iff : r.isReady = true ↔ r.IsRunning ∧ r.inHand = none := by
  simp only [isReady, Bool.and_eq_true, Bool.not_eq_true', Option.isNone_iff_eq_none]
  exact and_congr_left' ⟨fun h => ⟨h.1, h.2⟩, fun h => ⟨h.notDone, h.isOpen⟩⟩

end Relay

/-- What the filter at the end of a watch takes by a move, with the state in which it is tested. -/
def Watch.handles (w : Watch (StateM σ) α) (st : σ) : WatchMove → List (Event α × σ)
  | .relay level =>
    match w with
    | .filtered inner test r =>
      if (Watch.filtered inner test r).depth = level ∧ r.isReady = true then
        inner.receive.1.event?.toList.map (·, st)
      else []
    | .relayed _ _ => []
  | _ => []

namespace FeedTurn

def handles (now : Watching σ α × σ) : FeedTurn σ → List (Event α × σ)
  | .watch move => now.1.watch.handles now.2 move
  | .elsewhere _ => []

/-- What the filter at the end of a watch takes in the course of turns: each event with the state in
which it is tested. -/
def handled : List (FeedTurn σ) → Watching σ α × σ → List (Event α × σ)
  | [], _ => []
  | turn :: turns, now => turn.handles now ++ handled turns (turn.run now)

end FeedTurn

/-- The events that have passed the test, of those that have been handled. -/
def passed (test : Event α → StateM σ Bool) (handled : List (Event α × σ)) : List (Event α) :=
  (handled.filter fun h => ((test h.1).run h.2).1).map Prod.fst

/-! ## Progress -/

/-- How many steps of the last relay, behind a filter, and of its consumer can get anywhere before
something new comes. -/
def Watch.backlog : Watch (StateM σ) α → Nat
  | .relayed _ _ => 0
  | .filtered inner _ r => 3 * inner.relay.channel.queue.length + 2 * r.inHand.toList.length +
      r.channel.queue.length + r.channel.senders

/-- The watch can be run, without being ended, until it waits with an empty channel. -/
def Drains (now : Watching σ α × σ) : Prop :=
  ∃ turns : List (FeedTurn σ), (∀ turn ∈ turns, turn.ends = false) ∧
    (FeedTurn.runAll turns now).1.watch.relay.channel.queue = [] ∧
    ((FeedTurn.runAll turns now).1.watch.step.run (FeedTurn.runAll turns now).2).1.1 = false

theorem Drains.cons {now : Watching σ α × σ} {turn : FeedTurn σ} (hGoesOn : turn.ends = false)
    (h : Drains (turn.run now)) : Drains now := by
  obtain ⟨turns, hTurns, hEnd⟩ := h
  exact ⟨turn :: turns, List.forall_mem_cons.2 ⟨hGoesOn, hTurns⟩, hEnd⟩

section

variable {test : Event α → StateM σ Bool} {handled new : List (Event α × σ)}

theorem passed_append (test : Event α → StateM σ Bool) (first second : List (Event α × σ)) :
    passed test (first ++ second) = passed test first ++ passed test second := by
  rw [passed, List.filter_append, List.map_append]
  rfl

theorem passed_single (test : Event α → StateM σ Bool) (e : Event α) (st : σ) :
    passed test [(e, st)] = if ((test e).run st).1 = true then [e] else [] := by
  simp only [passed, List.filter_cons, List.filter_nil]
  split <;> rfl

theorem passed_sublist : (passed test handled).Sublist (handled.map Prod.fst) :=
  List.filter_sublist.map _

/-- What a filter does to the watch before it: it is its consumer, and its test may change the
state. -/
inductive FeedTurn.IsByFilter (test : Event α → StateM σ Bool) : FeedTurn σ → Prop
  | watch (move : WatchMove) : IsByFilter test (.watch move)
  | test (e : Event α) : IsByFilter test (.elsewhere fun st => ((test e).run st).2)

/-! ## Steps -/

variable {inner : Watch (StateM σ) α} {r : Relay α} {received : List (Event α)}

/-- The filter with the relay `r` has handled `handled`, and the consumer has received `received`.
The filter ends of its own accord only when the watch before it has nothing left. -/
structure Screens (test : Event α → StateM σ Bool) (handled : List (Event α × σ))
    (inner : Watch (StateM σ) α) (r : Relay α) (received : List (Event α)) : Prop where
  notLast : r.isLast = false
  capacity : 0 < r.channel.capacity
  given : received ++ r.channel.queue <+: passed test handled
  all : r.channel.isOpen = true → received ++ r.held = passed test handled
  exhausted : r.isDone = true → r.channel.isOpen = true →
    r.inHand = none ∧ ¬ inner.relay.IsRunning ∧ inner.relay.channel.queue = []

/-- What some turns make of the watch `inner` behind a filter: the filter has handled `new` more,
and `inner` has been run with the filter as its consumer. -/
inductive FilterRun (test : Event α → StateM σ Bool) (handled : List (Event α × σ))
    (inner : Watch (StateM σ) α) (st : σ) (turns : List (FeedTurn σ)) (new : List (Event α × σ)) :
    Watching σ α × σ → Prop
  | intro (inner' : Watch (StateM σ) α) (r : Relay α) (received : List (Event α)) (st' : σ)
      (before : List (FeedTurn σ)) (hScreens : Screens test (handled ++ new) inner' r received)
      (hBefore : ∀ b ∈ before, b.IsByFilter test ∨ b ∈ turns)
      (hConsumes : ∀ seen, FeedTurn.runAll before (⟨inner, seen⟩, st) =
        (⟨inner', seen ++ new.map Prod.fst⟩, st')) :
      FilterRun test handled inner st turns new (⟨.filtered inner' test r, received⟩, st')

namespace Screens

theorem opened (test : Event α → StateM σ Bool) (inner : Watch (StateM σ) α) (buffer : Nat) :
    Screens test [] inner (.ofCapacity buffer) [] where
  notLast := rfl
  capacity := Nat.le_max_right ..
  given := List.prefix_refl _
  all _ := rfl
  exhausted hDone := by cases hDone

/-- A turn that leaves the filter as it is. -/
theorem quiet (h : Screens test handled inner r received) (r' : Relay α)
    (before : List (FeedTurn σ)) {inner' : Watch (StateM σ) α} {received' : List (Event α)}
    {st st' : σ} {turns : List (FeedTurn σ)} (hLast : r'.isLast = r.isLast)
    (hCapacity : r'.channel.capacity = r.channel.capacity)
    (hGiven : received' ++ r'.channel.queue <+: received ++ r.channel.queue)
    (hAll : r'.channel.isOpen = true → r.channel.isOpen = true ∧ received' ++ r'.held =
      received ++ r.held)
    (hExhausted : r'.isDone = true → r'.channel.isOpen = true →
      r'.inHand = none ∧ ¬ inner'.relay.IsRunning ∧ inner'.relay.channel.queue = [])
    (hBefore : ∀ b ∈ before, b.IsByFilter test ∨ b ∈ turns)
    (hConsumes : ∀ seen, FeedTurn.runAll before (⟨inner, seen⟩, st) = (⟨inner', seen⟩, st')) :
    FilterRun test handled inner st turns [] (⟨.filtered inner' test r', received'⟩, st') := by
  refine .intro inner' r' received' st' before ⟨hLast.trans h.notLast, hCapacity ▸ h.capacity, ?_,
    fun hOpen => ?_, hExhausted⟩ hBefore fun seen => ?_
  · rw [List.append_nil]
    exact hGiven.trans h.given
  · obtain ⟨hWas, hSame⟩ := hAll hOpen
    rw [List.append_nil, hSame]
    exact h.all hWas
  · rw [hConsumes, List.map_nil, List.append_nil]

/-- A turn by which the filter takes an event. -/
theorem takes (h : Screens test handled inner r received) (hRunning : r.IsRunning)
    (hHand : r.inHand = none) {e : Event α} (hReceive : inner.receive.1 = .event e) (st : σ)
    (turns : List (FeedTurn σ)) {r' : Relay α} (hLast : r'.isLast = false)
    (hChannel : r'.channel = r.channel)
    (hHeld : r'.held = r.channel.queue ++ passed test [(e, st)]) :
    FilterRun test handled inner st turns [(e, st)]
      (⟨.filtered inner.receive.2 test r', received⟩, ((test e).run st).2) := by
  refine .intro inner.receive.2 r' received _
    [.watch .receive, .elsewhere fun st => ((test e).run st).2]
    ⟨hLast, hChannel ▸ h.capacity, ?_, fun _ => ?_, fun hDone => ?_⟩ ?_ fun seen => ?_
  · rw [hChannel, passed_append]
    exact h.given.trans (List.prefix_append ..)
  · rw [hHeld, passed_append, ← h.all hRunning.isOpen, Relay.held_of_empty hHand,
      List.append_assoc]
  · rw [Relay.isDone, hChannel] at hDone
    exact absurd (hRunning.notDone.symm.trans hDone) Bool.false_ne_true
  · simp only [List.forall_mem_cons]
    exact ⟨.inl (.watch _), .inl (.test e), List.forall_mem_nil _⟩
  · have hMove : (Watching.move ⟨inner, seen⟩ .receive).run st =
        (⟨inner.receive.2, seen ++ inner.receive.1.event?.toList⟩, st) := rfl
    simp only [FeedTurn.runAll, List.foldl_cons, List.foldl_nil, FeedTurn.run, hMove, hReceive]
    rfl

/-- The filter puts what it has in hand into its channel: the queue grows by it. -/
theorem delivers (h : Screens test handled inner r received) (hRunning : r.IsRunning)
    {e : Event α} (hHand : r.inHand = some e) (hRoom : r.channel.room ≠ 0) (st : σ)
    (turns : List (FeedTurn σ)) :
    FilterRun test handled inner st turns []
      (⟨.filtered inner test (r.deliver e), received⟩, st) := by
  have hChannel : (r.deliver e).channel = _ := Relay.channel_deliver hRunning hRoom
  have hHeld : (r.deliver e).held = r.held := Relay.held_deliver hRunning hRoom hHand
  refine .intro inner (r.deliver e) received st []
    ⟨h.notLast, ?_, ?_, fun _ => ?_, fun hDone => ?_⟩ (List.forall_mem_nil _) fun seen => ?_
  · rw [hChannel]
    exact h.capacity
  · rw [List.append_nil, ← Relay.held_of_empty rfl, hHeld, h.all hRunning.isOpen]
  · rw [List.append_nil, hHeld, h.all hRunning.isOpen]
  · exact absurd ((hRunning.deliver hRoom).notDone.symm.trans hDone) Bool.false_ne_true
  · rw [List.map_nil, List.append_nil]
    rfl

/-- The filter looks for an event, and there is none yet. -/
theorem waits (h : Screens test handled inner r received) (hRunning : r.IsRunning)
    (hNone : inner.receive.1.event? = none) (st : σ) (turns : List (FeedTurn σ)) :
    FilterRun test handled inner st turns []
      (⟨.filtered inner.receive.2 test r, received⟩, st) := by
  refine h.quiet _ [.watch .receive] rfl rfl (List.prefix_refl _) (fun hOpen => ⟨hOpen, rfl⟩)
    (fun hDone => ?_) ?_ fun seen => ?_
  · exact absurd (hRunning.notDone.symm.trans hDone) Bool.false_ne_true
  · exact List.forall_mem_singleton.2 (.inl (.watch _))
  · have hMove := Watching.moveAll_receive inner seen st
    rw [hNone, Option.toList_none, List.append_nil] at hMove
    exact hMove

/-- The filter looks for an event, and there will be none: it lets go of the watch before it. -/
theorem finishes (h : Screens test handled inner r received) (hHand : r.inHand = none)
    (hNone : inner.receive.1.event? = none) (st : σ) (turns : List (FeedTurn σ)) :
    FilterRun test handled inner st turns []
      (⟨.filtered inner.receive.2.drop test r.finish, received⟩, st) := by
  refine h.quiet _ [.watch .receive, .watch .drop] rfl rfl (List.prefix_refl _)
    (fun hOpen => ⟨hOpen, ?_⟩) (fun _ _ => ⟨rfl, ?_, ?_⟩) ?_ fun seen => ?_
  · rw [Relay.held_of_empty hHand, Relay.held_of_empty rfl]
    rfl
  · rw [Watch.drop, Watch.relay_withRelay]
    exact fun hStill => absurd hStill.isOpen Bool.false_ne_true
  · rw [Watch.drop, Watch.relay_withRelay]
    rfl
  · simp only [List.forall_mem_cons]
    exact ⟨.inl (.watch _), .inl (.watch _), List.forall_mem_nil _⟩
  · have hMove := Watching.moveAll_receive_drop inner seen st
    rw [hNone, Option.toList_none, List.append_nil] at hMove
    exact hMove

theorem handles_ready (hRunning : r.IsRunning) (hHand : r.inHand = none) (st : σ) :
    (Watch.filtered inner test r).handles st (.relay (Watch.filtered inner test r).depth) =
      inner.receive.1.event?.toList.map (·, st) :=
  if_pos ⟨rfl, Relay.isReady_iff.2 ⟨hRunning, hHand⟩⟩

theorem handles_busy (hBusy : ¬ (r.IsRunning ∧ r.inHand = none)) (st : σ) (move : WatchMove) :
    (Watch.filtered inner test r).handles st move = [] := by
  cases move with
  | relay level => exact if_neg fun h => hBusy (Relay.isReady_iff.1 h.2)
  | receive => rfl
  | stop => rfl
  | drop => rfl

/-- The relay of the filter makes a step. -/
theorem step (h : Screens test handled inner r received) (st : σ) :
    let w := Watch.filtered inner test r
    FilterRun test handled inner st [.watch (.relay w.depth)] (w.handles st (.relay w.depth))
      (⟨(w.step.run st).1.2, received⟩, (w.step.run st).2) := by
  intro w
  have hOutcome : Watch.StepOutcome w r st _ := Watch.step_outcome _ st
  generalize w.step.run st = outcome at hOutcome
  cases hOutcome with
  | done hDone =>
    have hBusy : ¬ (r.IsRunning ∧ r.inHand = none) := fun hReady =>
      absurd (hReady.1.notDone.symm.trans hDone) Bool.false_ne_true
    rw [handles_busy hBusy]
    exact h.quiet _ [] rfl rfl (List.prefix_refl _) (fun hOpen => ⟨hOpen, rfl⟩)
      h.exhausted (List.forall_mem_nil _) fun _ => rfl
  | cancelled hDone hClosed =>
    have hBusy : ¬ (r.IsRunning ∧ r.inHand = none) := fun hReady =>
      absurd (hClosed.symm.trans hReady.1.isOpen) Bool.false_ne_true
    have hStill : r.finish.channel.isOpen = true → False := fun hOpen =>
      Bool.false_ne_true (hClosed.symm.trans hOpen)
    rw [handles_busy hBusy]
    refine h.quiet _ [.watch .drop] rfl rfl (List.prefix_refl _)
      (fun hOpen => (hStill hOpen).elim) (fun _ hOpen => (hStill hOpen).elim) ?_ fun _ => rfl
    exact List.forall_mem_singleton.2 (.inl (.watch _))
  | blocked e _ hHand =>
    have hBusy : ¬ (r.IsRunning ∧ r.inHand = none) := fun hReady =>
      absurd (hReady.2.symm.trans hHand) nofun
    rw [handles_busy hBusy]
    exact h.quiet _ [] rfl rfl (List.prefix_refl _) (fun hOpen => ⟨hOpen, rfl⟩)
      h.exhausted (List.forall_mem_nil _) fun _ => rfl
  | delivered e hRunning hHand hRoom _ =>
    have hBusy : ¬ (r.IsRunning ∧ r.inHand = none) := fun hReady =>
      absurd (hReady.2.symm.trans hHand) nofun
    rw [handles_busy hBusy]
    exact h.delivers hRunning hHand hRoom st _
  | deliveredLast _ _ _ _ hIsLast => exact absurd (h.notLast.symm.trans hIsLast) Bool.false_ne_true
  | held e w' t hRunning hHand hTake hPasses =>
    obtain ⟨rfl, rfl, ⟨_, hEq, hReceive⟩ | ⟨hNone | hNone, -⟩⟩ := Watch.take_filtered hTake
    · obtain rfl := Taken.event.inj hEq
      rw [handles_ready hRunning hHand, hReceive]
      refine h.takes hRunning hHand hReceive t _ rfl rfl ?_
      have hPassed : passed test [(e, t)] = [e] := (passed_single ..).trans (if_pos hPasses)
      rw [hPassed, Relay.held_hold hHand, Relay.held_of_empty hHand]
    · cases hNone
    · cases hNone
  | skipped e w' t hRunning hHand hTake hPasses =>
    obtain ⟨rfl, rfl, ⟨_, hEq, hReceive⟩ | ⟨hNone | hNone, -⟩⟩ := Watch.take_filtered hTake
    · obtain rfl := Taken.event.inj hEq
      rw [handles_ready hRunning hHand, hReceive]
      refine h.takes hRunning hHand hReceive t _ h.notLast rfl ?_
      have hPassed : passed test [(e, t)] = [] :=
        (passed_single ..).trans (if_neg (Bool.eq_false_iff.1 hPasses))
      rw [hPassed, List.append_nil, Relay.held_of_empty hHand]
    · cases hNone
    · cases hNone
  | heldLast e w' t _ _ hTake =>
    obtain ⟨-, -, ⟨_, hEvent, -⟩ | ⟨hNone | hNone, -⟩⟩ := Watch.take_filtered hTake
    · cases hEvent
    · cases hNone
    · cases hNone
  | waiting w' t hRunning hHand hTake =>
    obtain ⟨rfl, rfl, ⟨_, hEvent, -⟩ | ⟨-, hNone⟩⟩ := Watch.take_filtered hTake
    · cases hEvent
    · rw [handles_ready hRunning hHand, hNone]
      exact h.waits hRunning hNone t _
  | ended w' t hRunning hHand hTake =>
    obtain ⟨rfl, rfl, ⟨_, hEvent, -⟩ | ⟨-, hNone⟩⟩ := Watch.take_filtered hTake
    · cases hEvent
    · rw [handles_ready hRunning hHand, hNone]
      exact h.finishes hHand hNone t _

/-- A relay before the filter makes a step. -/
theorem before (h : Screens test handled inner r received) (level : Nat) (st : σ) :
    FilterRun test handled inner st [.watch (.relay level)] []
      (⟨.filtered ((inner.stepAt level).run st).1.2 test r, received⟩,
        ((inner.stepAt level).run st).2) := by
  refine h.quiet _ [.watch (.relay level)] rfl rfl (List.prefix_refl _)
    (fun hOpen => ⟨hOpen, rfl⟩) (fun hDone hOpen => ?_) ?_ fun seen => rfl
  · obtain ⟨hHand, hOver, hEmpty⟩ := h.exhausted hDone hOpen
    rcases Watch.relay_stepAt_of_over hOver level st with hSame | hFinished
    · rw [hSame]
      exact ⟨hHand, hOver, hEmpty⟩
    · rw [hFinished]
      exact ⟨hHand, fun hRunning => hOver hRunning.of_finish, hEmpty⟩
  · exact List.forall_mem_singleton.2 (.inl (.watch _))

/-- What the consumer does changes nothing before the filter. -/
theorem consume (h : Screens test handled inner r received) (st : σ) {move : WatchMove}
    (hConsumer : ∀ level, move ≠ .relay level) :
    FilterRun test handled inner st [.watch move] []
      ((Watching.move ⟨.filtered inner test r, received⟩ move).run st) := by
  have hUntouched : ∀ seen : List (Event α),
      FeedTurn.runAll [] (⟨inner, seen⟩, st) = (⟨inner, seen⟩, st) := fun _ => rfl
  cases move with
  | relay level => exact absurd rfl (hConsumer level)
  | receive =>
    rcases r.channel.receive_cases with ⟨e, rest, hQueue, hRun⟩ | ⟨delivery, -, hNone, hRun⟩
    · simp only [Watching.move, Watch.receive, Watch.relay, hRun, run_pure]
      refine h.quiet { r with channel := { r.channel with queue := rest } } [] rfl rfl ?_
        (fun hOpen => ⟨hOpen, ?_⟩) h.exhausted (List.forall_mem_nil _) hUntouched
      · rw [hQueue, List.append_assoc]
        exact List.prefix_refl _
      · rw [Relay.held, Relay.held, hQueue, List.append_assoc]
        rfl
    · simp only [Watching.move, Watch.receive, Watch.relay, hRun, run_pure, hNone,
        Option.toList_none, List.append_nil]
      exact h.quiet _ [] rfl rfl (List.prefix_refl _) (fun hOpen => ⟨hOpen, rfl⟩) h.exhausted
        (List.forall_mem_nil _) hUntouched
  | stop =>
    exact h.quiet { r with channel := r.channel.stop } [] rfl rfl (List.prefix_refl _)
      (fun hOpen => absurd hOpen Bool.false_ne_true)
      (fun _ hOpen => absurd hOpen Bool.false_ne_true) (List.forall_mem_nil _) hUntouched
  | drop =>
    refine h.quiet { r with channel := r.channel.drop } [] rfl rfl ?_
      (fun hOpen => absurd hOpen Bool.false_ne_true)
      (fun _ hOpen => absurd hOpen Bool.false_ne_true) (List.forall_mem_nil _) hUntouched
    exact (List.append_nil received).symm ▸ List.prefix_append ..

theorem turn (h : Screens test handled inner r received) (turn : FeedTurn σ) (st : σ) :
    FilterRun test handled inner st [turn] (turn.handles (⟨.filtered inner test r, received⟩, st))
      (turn.run (⟨.filtered inner test r, received⟩, st)) := by
  cases turn with
  | watch move =>
    cases move with
    | relay level =>
      by_cases hLevel : (Watch.filtered inner test r).depth = level
      · subst hLevel
        rw [FeedTurn.run, Watching.move_filter]
        exact h.step st
      · have hNone : (Watch.filtered inner test r).handles st (.relay level) = [] :=
          if_neg fun hReady => hLevel hReady.1
        rw [FeedTurn.handles, hNone, FeedTurn.run, Watching.move_before hLevel]
        exact h.before level st
    | receive => exact h.consume st (by simp)
    | stop => exact h.consume st (by simp)
    | drop => exact h.consume st (by simp)
  | elsewhere change =>
    refine h.quiet _ [.elsewhere change] rfl rfl (List.prefix_refl _)
      (fun hOpen => ⟨hOpen, rfl⟩) h.exhausted ?_ fun seen => rfl
    exact List.forall_mem_singleton.2 (.inr (List.mem_singleton.2 rfl))

/-- However a watch behind a filter is run, the filter screens what it handles, and the watch before
it is run with the filter as its consumer. -/
theorem run (h : Screens test handled inner r received) (turns : List (FeedTurn σ)) (st : σ) :
    FilterRun test handled inner st turns
      (FeedTurn.handled turns (⟨.filtered inner test r, received⟩, st))
      (FeedTurn.runAll turns (⟨.filtered inner test r, received⟩, st)) := by
  induction turns generalizing handled inner r received st with
  | nil =>
    exact h.quiet _ [] rfl rfl (List.prefix_refl _) (fun hOpen => ⟨hOpen, rfl⟩)
      h.exhausted (List.forall_mem_nil _) fun _ => rfl
  | cons turn turns ih =>
    have hTurn := h.turn turn st
    rw [FeedTurn.handled, FeedTurn.runAll, List.foldl_cons, ← FeedTurn.runAll]
    generalize turn.run (⟨.filtered inner test r, received⟩, st) = next at hTurn
    generalize turn.handles (⟨.filtered inner test r, received⟩, st) = new at hTurn
    obtain ⟨inner₁, r₁, received₁, st₁, first, hNext, hFirst, hConsumes⟩ := hTurn
    have hRest := ih hNext st₁
    generalize FeedTurn.runAll turns (⟨.filtered inner₁ test r₁, received₁⟩, st₁) = end_ at hRest
    generalize FeedTurn.handled turns (⟨.filtered inner₁ test r₁, received₁⟩, st₁) = more at hRest
    obtain ⟨inner₂, r₂, received₂, st₂, second, hEnd, hSecond, hConsumes₂⟩ := hRest
    refine .intro inner₂ r₂ received₂ st₂ (first ++ second) ?_ (fun b hMem => ?_) fun seen => ?_
    · rwa [← List.append_assoc]
    · rcases List.mem_append.1 hMem with hMem | hMem
      · refine (hFirst b hMem).imp_right fun hTurn => ?_
        exact List.mem_cons.2 (.inl (List.mem_singleton.1 hTurn))
      · exact (hSecond b hMem).imp_right (List.mem_cons_of_mem _)
    · rw [FeedTurn.runAll_append, hConsumes, hConsumes₂, List.map_append, List.append_assoc]

/-- A filter that waits with an empty channel has given on all that has passed, and nothing is left
before it. -/
theorem complete (h : Screens test handled inner r received) (hOpen : r.channel.isOpen = true)
    (hEmpty : r.channel.queue = []) {st : σ}
    (hWaits : ((Watch.filtered inner test r).step.run st).1.1 = false) :
    received = passed test handled ∧ inner.relay.channel.queue = [] := by
  have hAll := h.all hOpen
  have hOutcome : Watch.StepOutcome (.filtered inner test r) r st _ := Watch.step_outcome _ st
  generalize (Watch.filtered inner test r).step.run st = outcome at hOutcome hWaits
  cases hOutcome with
  | done hDone =>
    obtain ⟨hHand, -, hNothing⟩ := h.exhausted hDone hOpen
    rw [Relay.held_of_empty hHand, hEmpty, List.append_nil] at hAll
    exact ⟨hAll, hNothing⟩
  | blocked _ _ _ hFull =>
    have hQueue : r.channel.queue.length = 0 := congrArg List.length hEmpty
    have hCapacity := h.capacity
    rw [Channel.room] at hFull
    omega
  | waiting w' t _ hHand hTake =>
    obtain ⟨-, -, ⟨_, hEvent, -⟩ | ⟨-, hNone⟩⟩ := Watch.take_filtered hTake
    · cases hEvent
    · rw [Relay.held_of_empty hHand, hEmpty, List.append_nil] at hAll
      exact ⟨hAll, Watch.queue_eq_nil hNone⟩
  | _ => cases hWaits

/-- A step that gets anywhere brings the filter closer to its end or to waiting. -/
theorem backlog_step (h : Screens test handled inner r received) (hOpen : r.channel.isOpen = true)
    {st : σ} (hMoves : ((Watch.filtered inner test r).step.run st).1.1 = true) :
    ((Watch.filtered inner test r).step.run st).1.2.backlog <
      (Watch.filtered inner test r).backlog := by
  have hOutcome : Watch.StepOutcome (.filtered inner test r) r st _ := Watch.step_outcome _ st
  generalize (Watch.filtered inner test r).step.run st = outcome at hOutcome hMoves
  cases hOutcome with
  | cancelled _ hClosed => exact absurd (hClosed.symm.trans hOpen) Bool.false_ne_true
  | delivered e hRunning hHand hRoom _ =>
    have hChannel : (r.deliver e).channel = _ := Relay.channel_deliver hRunning hRoom
    have hEmptied : (r.deliver e).inHand = none := rfl
    simp only [Watch.withRelay, Watch.backlog, hChannel, hEmptied, hHand, List.length_append,
      Option.toList_none, Option.toList_some, List.length_nil, List.length_singleton]
    omega
  | deliveredLast _ _ _ _ hIsLast => exact absurd (h.notLast.symm.trans hIsLast) Bool.false_ne_true
  | held e w' t _ hHand hTake =>
    obtain ⟨-, rfl, ⟨_, -, hReceive⟩ | ⟨hNone | hNone, -⟩⟩ := Watch.take_filtered hTake
    · have hLess := Watch.length_receive hReceive
      simp only [Watch.withRelay, Watch.backlog, Relay.hold, hHand, Option.toList_none,
        Option.toList_some, List.length_nil, List.length_singleton]
      omega
    · cases hNone
    · cases hNone
  | skipped e w' t _ hHand hTake =>
    obtain ⟨-, rfl, ⟨_, -, hReceive⟩ | ⟨hNone | hNone, -⟩⟩ := Watch.take_filtered hTake
    · have hLess := Watch.length_receive hReceive
      simp only [Watch.backlog]
      omega
    · cases hNone
    · cases hNone
  | heldLast e w' t _ _ hTake =>
    obtain ⟨-, -, ⟨_, hEvent, -⟩ | ⟨hNone | hNone, -⟩⟩ := Watch.take_filtered hTake
    · cases hEvent
    · cases hNone
    · cases hNone
  | ended w' t hRunning _ hTake =>
    obtain ⟨-, rfl, -⟩ := Watch.take_filtered hTake
    have hSenders : r.channel.senders ≠ 0 := of_decide_eq_false hRunning.notDone
    have hDropped : inner.receive.2.drop.relay.channel.queue = [] := by
      rw [Watch.drop, Watch.relay_withRelay]
      rfl
    simp only [Watch.finish, run_pure, Watch.backlog, hDropped, Relay.finish, Channel.dropSender,
      Option.toList_none, List.length_nil]
    omega
  | _ => cases hMoves

/-- As long as the consumer is there, everything that is left before the filter comes through it:
the filter and the consumer only have to go on. -/
theorem drains (h : Screens test handled inner r received) (hOpen : r.channel.isOpen = true)
    (st : σ) : Drains (⟨.filtered inner test r, received⟩, st) := by
  induction hBacklog : (Watch.filtered inner test r).backlog using Nat.strongRecOn
    generalizing handled inner r received st with
  | ind n ih =>
    subst hBacklog
    have hGoOn : ∀ turn : FeedTurn σ, turn.ends = false →
        (turn.run (⟨.filtered inner test r, received⟩, st)).1.watch.backlog <
          (Watch.filtered inner test r).backlog →
        Drains (⟨.filtered inner test r, received⟩, st) := fun turn hEnds hLess => by
      refine Drains.cons hEnds ?_
      have hNext := h.turn turn st
      have hStill := FeedTurn.isOpen_run (⟨.filtered inner test r, received⟩, st) hEnds
      generalize turn.run (⟨.filtered inner test r, received⟩, st) = next at hNext hStill hLess
      obtain ⟨inner', r', received', st', -, hScreens, -, -⟩ := hNext
      exact ih _ hLess hScreens (hStill.trans hOpen) st' rfl
    rcases r.channel.receive_cases with ⟨e, rest, hQueue, hRun⟩ | ⟨-, hQueue, -, -⟩
    · refine hGoOn (.watch .receive) rfl ?_
      simp only [FeedTurn.run, Watching.move, Watch.receive, Watch.relay, hRun, run_pure,
        Watch.withRelay, Watch.backlog, hQueue, List.length_cons]
      omega
    · cases hMoves : ((Watch.filtered inner test r).step.run st).1.1 with
      | false => exact ⟨[], List.forall_mem_nil _, hQueue, hMoves⟩
      | true =>
        refine hGoOn (.watch (.relay (Watch.filtered inner test r).depth)) rfl ?_
        rw [FeedTurn.run, Watching.move_filter]
        exact h.backlog_step hOpen hMoves

end Screens

end

end Tenancy
