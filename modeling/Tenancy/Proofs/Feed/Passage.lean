import Tenancy.Proofs.Feed.Relay

/-!
# Watches through a filter that lets everything pass

A filter may change what is its own concern: an authorizer writes down what it is asked, say.  A
watch behind a filter that lets everything pass is compared with the watch itself in states that are
the same but for this.  What the one has delivered, with what its last relay holds, is what the
other has delivered.

* `Trails.move`: every move behind the filter is matched by moves of the watch itself.
* `Abreast.move`: every move of the watch itself is matched behind the filter, event by event.
-/

namespace Tenancy

variable {σ α : Type} {same : σ → σ → Prop}

/-! ## Watches that respect what is the same -/

namespace Watch

variable {w : Watch (StateM σ) α}

def Respects (same : σ → σ → Prop) : Watch (StateM σ) α → Prop
  | .relayed source _ => Tenancy.Respects same source.take.run ∧
      Tenancy.Respects same source.cancel.run
  | .filtered inner test _ => inner.Respects same ∧ ∀ e, Tenancy.Respects same (test e).run

theorem respects_withRelay {r : Relay α} : (w.withRelay r).Respects same ↔ w.Respects same := by
  cases w <;> exact Iff.rfl

theorem Respects.receive (h : w.Respects same) : w.receive.2.Respects same := respects_withRelay.2 h

theorem Respects.drop (h : w.Respects same) : w.drop.Respects same := respects_withRelay.2 h

theorem Respects.take (h : w.Respects same) :
    Tenancy.Respects same w.take.run ∧ ∀ st, (w.take.run st).1.2.Respects same := by
  cases w with
  | relayed source r => exact ⟨respects_bind h.1 fun _ => respects_pure _, fun _ => h⟩
  | filtered inner test r =>
    have hInner := h.1.receive
    rw [Watch.take]
    generalize inner.receive = received at hInner
    rcases received with ⟨_ | _ | _, inner⟩
    · exact ⟨respects_pure _, fun _ => ⟨hInner, h.2⟩⟩
    · exact ⟨respects_pure _, fun _ => ⟨hInner, h.2⟩⟩
    · exact ⟨respects_pure _, fun _ => ⟨hInner, h.2⟩⟩

theorem Respects.passes (h : w.Respects same) (e : Event α) :
    Tenancy.Respects same (w.passes e).run := by
  cases w with
  | relayed source r => exact respects_pure true
  | filtered inner test r => exact h.2 e

theorem Respects.finish (h : w.Respects same) :
    Tenancy.Respects same w.finish.run ∧ ∀ st, (w.finish.run st).1.Respects same := by
  cases w with
  | relayed source r => exact ⟨respects_bind h.2 fun _ => respects_pure _, fun _ => h⟩
  | filtered inner test r => exact ⟨respects_pure _, fun _ => ⟨h.1.drop, h.2⟩⟩

/-- What is left of a watch whose last relay has made a step respects what the watch respects. -/
theorem Respects.after_step (h : w.Respects same) (st : σ) : (w.step.run st).1.2.Respects same := by
  have hOutcome := w.step_outcome st
  have hTaken := h.take.2 st
  generalize w.step.run st = outcome at hOutcome
  cases hOutcome with
  | done => exact h
  | cancelled => exact h.finish.2 st
  | blocked => exact h
  | delivered => exact respects_withRelay.2 h
  | deliveredLast e =>
    have hDelivered : (w.withRelay (w.relay.deliver e)).Respects same := respects_withRelay.2 h
    exact hDelivered.finish.2 st
  | held e w' t _ _ hTake => exact respects_withRelay.2 (by rwa [hTake] at hTaken)
  | skipped e w' t _ _ hTake => rwa [hTake] at hTaken
  | heldLast e w' t _ _ hTake => exact respects_withRelay.2 (by rwa [hTake] at hTaken)
  | waiting w' t _ _ hTake => rwa [hTake] at hTaken
  | ended w' t _ _ hTake =>
    rw [hTake] at hTaken
    exact hTaken.finish.2 t

theorem Respects.step (h : w.Respects same) : Tenancy.Respects same w.step.run := by
  have hEnd {w : Watch (StateM σ) α} (h : w.Respects same) :
      Tenancy.Respects same (do return (true, ← w.finish) : StateM σ _).run :=
    respects_bind h.finish.1 fun _ => respects_pure _
  rw [Watch.step]
  cases w.relay.isDone with
  | true => exact respects_pure _
  | false =>
    cases w.relay.channel.isOpen with
    | false => exact hEnd h
    | true =>
      cases w.relay.inHand with
      | some e =>
        by_cases hRoom : w.relay.channel.room = 0
        · simp only [hRoom]
          exact respects_pure _
        · simp only [hRoom]
          cases w.relay.isLast with
          | false => exact respects_pure _
          | true => exact hEnd (respects_withRelay.2 h)
      | none =>
        refine respects_bind h.take.1 fun st => ?_
        have hTaken := h.take.2 st
        generalize (w.take.run st).1 = taken at hTaken
        rcases taken with ⟨e | e | _ | _, w'⟩
        · refine respects_bind (hTaken.passes e) fun t => ?_
          cases ((w'.passes e).run t).1 with
          | true => exact respects_pure _
          | false => exact respects_pure _
        · exact respects_pure _
        · exact respects_pure _
        · exact hEnd hTaken

theorem Respects.stepAt (h : w.Respects same) (level : Nat) :
    Tenancy.Respects same (w.stepAt level).run ∧
      ∀ st, ((w.stepAt level).run st).1.2.Respects same := by
  induction w with
  | relayed source r =>
    unfold Watch.stepAt
    split
    · exact ⟨h.step, h.after_step⟩
    · exact ⟨respects_pure _, fun _ => h⟩
  | filtered inner test r ih =>
    unfold Watch.stepAt
    split
    · exact ⟨h.step, h.after_step⟩
    · exact ⟨respects_bind (ih h.1).1 fun _ => respects_pure _, fun st => ⟨(ih h.1).2 st, h.2⟩⟩

/-- Without an event to receive the watch stays as it is. -/
theorem receive_cases (w : Watch (StateM σ) α) :
    (∃ e, w.receive.1 = .event e) ∨ w.receive.1.event? = none ∧ w.receive.2 = w := by
  rcases w.relay.channel.receive_cases with ⟨e, rest, -, hRun⟩ | ⟨delivery, -, hNone, hRun⟩
  · refine .inl ⟨e, ?_⟩
    rw [receive, hRun]
  · refine .inr ?_
    rw [receive, hRun]
    exact ⟨hNone, by cases w <;> rfl⟩

/-- A step of a relay that the watch does not have. -/
theorem stepAt_of_depth_lt {level : Nat} (hLevel : w.depth < level) :
    w.stepAt level = pure (false, w) := by
  induction w with
  | relayed source r => rw [stepAt, if_neg (Nat.ne_of_lt hLevel)]
  | filtered inner test r ih =>
    rw [stepAt, if_neg (Nat.ne_of_lt hLevel), ih (Nat.lt_of_succ_lt hLevel)]
    rfl

end Watch

/-! ## Behind a filter -/

/-- Every event passes the test, which leaves behind nothing that matters. -/
def PassesAll (same : σ → σ → Prop) (test : Event α → StateM σ Bool) : Prop :=
  ∀ e st st', same st st' → ((test e).run st).1 = true ∧ same ((test e).run st).2 st'

def WatchMove.ends : WatchMove → Bool
  | .relay _ | .receive => false
  | .stop | .drop => true

def Watching.moveAll (moves : List WatchMove) (now : Watching σ α × σ) : Watching σ α × σ :=
  moves.foldl (fun now move => (now.1.move move).run now.2) now

theorem Watching.moveAll_cons (move : WatchMove) (moves : List WatchMove) (v : Watching σ α)
    (st : σ) : moveAll (move :: moves) (v, st) = moveAll moves ((v.move move).run st) := rfl

theorem Watching.moveAll_receive (inner : Watch (StateM σ) α) (seen : List (Event α)) (st : σ) :
    moveAll [.receive] (⟨inner, seen⟩, st) =
      (⟨inner.receive.2, seen ++ inner.receive.1.event?.toList⟩, st) := rfl

theorem Watching.moveAll_receive_drop (inner : Watch (StateM σ) α) (seen : List (Event α))
    (st : σ) :
    moveAll [.receive, .drop] (⟨inner, seen⟩, st) =
      (⟨inner.receive.2.drop, seen ++ inner.receive.1.event?.toList⟩, st) := rfl

/-- The first watch is the second one behind a filter that lets everything pass: it has delivered a
beginning of what the second one has delivered, and unless its consumer has stopped it, all but what
its relay holds. -/
inductive Trails (same : σ → σ → Prop) : Watching σ α → Watching σ α → Prop
  | intro (inner : Watch (StateM σ) α) (test : Event α → StateM σ Bool) (r : Relay α)
      (received seen : List (Event α)) (hInner : inner.Respects same) (hTest : PassesAll same test)
      (hLast : r.isLast = false) (hPrefix : received ++ r.channel.queue <+: seen)
      (hOpen : r.channel.isOpen = true → received ++ r.held = seen) :
      Trails same ⟨.filtered inner test r, received⟩ ⟨inner, seen⟩

/-- The first watch is the second one behind a filter that lets everything pass, has delivered the
same, and holds nothing. -/
inductive Abreast (same : σ → σ → Prop) : Watching σ α → Watching σ α → Prop
  | intro (inner : Watch (StateM σ) α) (test : Event α → StateM σ Bool) (r : Relay α)
      (received : List (Event α)) (hInner : inner.Respects same) (hTest : PassesAll same test)
      (hRunning : r.IsRunning) (hCapacity : 0 < r.channel.capacity) (hHand : r.inHand = none)
      (hQueue : r.channel.queue = []) :
      Abreast same ⟨.filtered inner test r, received⟩ ⟨inner, received⟩

section

variable {inner : Watch (StateM σ) α} {test : Event α → StateM σ Bool} {r : Relay α}
  {received seen : List (Event α)} {v u : Watching σ α} {st st' : σ}

/-- A filtered watch takes the next event that the consumer of the watch itself would receive. -/
theorem Watch.take_filtered {x : Taken α} {w : Watch (StateM σ) α} {t : σ}
    (hTake : (Watch.filtered inner test r).take.run st = ((x, w), t)) :
    t = st ∧ w = .filtered inner.receive.2 test r ∧
      ((∃ e, x = .event e ∧ inner.receive.1 = .event e) ∨
        (x = .pending ∨ x = .ended) ∧ inner.receive.1.event? = none) := by
  rw [take] at hTake
  generalize inner.receive = delivered at hTake
  rcases delivered with ⟨e | _ | _, next⟩
  · obtain ⟨hLeft, rfl⟩ := Prod.mk.inj hTake
    obtain ⟨rfl, rfl⟩ := Prod.mk.inj hLeft
    exact ⟨rfl, rfl, .inl ⟨e, rfl, rfl⟩⟩
  · obtain ⟨hLeft, rfl⟩ := Prod.mk.inj hTake
    obtain ⟨rfl, rfl⟩ := Prod.mk.inj hLeft
    exact ⟨rfl, rfl, .inr ⟨.inl rfl, rfl⟩⟩
  · obtain ⟨hLeft, rfl⟩ := Prod.mk.inj hTake
    obtain ⟨rfl, rfl⟩ := Prod.mk.inj hLeft
    exact ⟨rfl, rfl, .inr ⟨.inr rfl, rfl⟩⟩

/-- The relay of the filter makes a step. -/
theorem Watching.move_filter (inner : Watch (StateM σ) α) (test : Event α → StateM σ Bool)
    (r : Relay α) (received : List (Event α)) (st : σ) :
    (move ⟨.filtered inner test r, received⟩ (.relay (Watch.filtered inner test r).depth)).run st =
      (⟨((Watch.filtered inner test r).step.run st).1.2, received⟩,
        ((Watch.filtered inner test r).step.run st).2) := by
  rw [move, Watch.stepAt_depth]
  rfl

/-- A relay before the filter makes a step. -/
theorem Watching.move_before {level : Nat} (hLevel : (Watch.filtered inner test r).depth ≠ level)
    (received : List (Event α)) (st : σ) :
    (move ⟨.filtered inner test r, received⟩ (.relay level)).run st =
      (⟨.filtered ((inner.stepAt level).run st).1.2 test r, received⟩,
        ((inner.stepAt level).run st).2) := by
  rw [move, Watch.stepAt, if_neg hLevel]
  rfl

namespace Trails

/-- A step of the filter is matched by what the filter does as the consumer of the watch. -/
theorem step (h : Trails same ⟨.filtered inner test r, received⟩ ⟨inner, seen⟩)
    (hSame : same st st') :
    ∃ moves, Trails same ⟨((Watch.filtered inner test r).step.run st).1.2, received⟩
        (Watching.moveAll moves (⟨inner, seen⟩, st')).1 ∧
      same ((Watch.filtered inner test r).step.run st).2
        (Watching.moveAll moves (⟨inner, seen⟩, st')).2 := by
  obtain ⟨_, _, _, _, _, hInner, hTest, hLast, hPrefix, hOpen⟩ := h
  have hOutcome : Watch.StepOutcome (.filtered inner test r) r st _ := Watch.step_outcome _ st
  generalize (Watch.filtered inner test r).step.run st = outcome at hOutcome
  cases hOutcome with
  | done => exact ⟨[], .intro inner test r _ _ hInner hTest hLast hPrefix hOpen, hSame⟩
  | cancelled _ hClosed =>
    refine ⟨[.drop], .intro inner.drop test r.finish _ _ hInner.drop hTest hLast hPrefix ?_, hSame⟩
    exact fun hStill => absurd (hClosed.symm.trans hStill) Bool.false_ne_true
  | blocked => exact ⟨[], .intro inner test r _ _ hInner hTest hLast hPrefix hOpen, hSame⟩
  | delivered e hRunning hHand hRoom =>
    have hEvents := hOpen hRunning.isOpen
    have hHeld : received ++ (r.deliver e).held = seen :=
      (Relay.held_deliver hRunning hRoom hHand).symm ▸ hEvents
    refine ⟨[], .intro inner test (r.deliver e) _ _ hInner hTest hLast ?_ fun _ => hHeld, hSame⟩
    rw [← Relay.held_of_empty rfl, hHeld]
  | deliveredLast _ _ _ _ hIsLast => exact absurd (hLast.symm.trans hIsLast) Bool.false_ne_true
  | held e w t hRunning hHand hTake =>
    obtain ⟨rfl, rfl, ⟨_, hEq, hReceive⟩ | ⟨hNone | hNone, -⟩⟩ := Watch.take_filtered hTake
    · obtain rfl := Taken.event.inj hEq
      have hHeld : received ++ (r.hold e false).held = seen ++ [e] := by
        rw [Relay.held_hold hHand, ← List.append_assoc, hOpen hRunning.isOpen]
      refine ⟨[.receive], ?_, (hTest e t st' hSame).2⟩
      rw [Watching.moveAll_receive, hReceive]
      exact .intro inner.receive.2 test (r.hold e false) _ _ hInner.receive hTest rfl
        (hPrefix.trans (List.prefix_append ..)) fun _ => hHeld
    · cases hNone
    · cases hNone
  | skipped e w t _ _ hTake hFails =>
    obtain ⟨rfl, rfl, -⟩ := Watch.take_filtered hTake
    exact absurd (hFails.symm.trans (hTest e t st' hSame).1) Bool.false_ne_true
  | heldLast e w t _ _ hTake =>
    obtain ⟨-, -, ⟨_, hEvent, -⟩ | ⟨hNone | hNone, -⟩⟩ := Watch.take_filtered hTake
    · cases hEvent
    · cases hNone
    · cases hNone
  | waiting w t _ _ hTake =>
    obtain ⟨rfl, rfl, ⟨_, hEvent, -⟩ | ⟨-, hNone⟩⟩ := Watch.take_filtered hTake
    · cases hEvent
    · refine ⟨[.receive], ?_, hSame⟩
      rw [Watching.moveAll_receive, hNone, Option.toList_none, List.append_nil]
      exact .intro inner.receive.2 test r _ _ hInner.receive hTest hLast hPrefix hOpen
  | ended w t hRunning hHand hTake =>
    obtain ⟨rfl, rfl, ⟨_, hEvent, -⟩ | ⟨-, hNone⟩⟩ := Watch.take_filtered hTake
    · cases hEvent
    · have hHeld : received ++ r.finish.held = seen := by
        rw [Relay.held_of_empty rfl, ← hOpen hRunning.isOpen, Relay.held_of_empty hHand]
        rfl
      refine ⟨[.receive, .drop], ?_, hSame⟩
      rw [Watching.moveAll_receive_drop, hNone, Option.toList_none, List.append_nil]
      exact .intro inner.receive.2.drop test r.finish _ _ hInner.receive.drop hTest hLast hPrefix
        fun _ => hHeld

/-- Every move behind the filter is matched by moves of the watch itself. -/
theorem move (h : Trails same v u) (hSame : same st st') (move : WatchMove) :
    ∃ moves, Trails same ((v.move move).run st).1 (Watching.moveAll moves (u, st')).1 ∧
      same ((v.move move).run st).2 (Watching.moveAll moves (u, st')).2 := by
  have hStart := h
  obtain ⟨inner, test, r, received, seen, hInner, hTest, hLast, hPrefix, hOpen⟩ := h
  cases move with
  | relay level =>
    by_cases hLevel : (Watch.filtered inner test r).depth = level
    · rw [← hLevel, Watching.move_filter]
      exact hStart.step hSame
    · obtain ⟨hResult, hNext⟩ := (hInner.stepAt level).1 st st' hSame
      have hAfter := (hInner.stepAt level).2 st
      rw [Watching.move_before hLevel]
      rw [hResult] at hAfter ⊢
      exact ⟨[.relay level], .intro _ test r received seen hAfter hTest hLast hPrefix hOpen, hNext⟩
  | receive =>
    refine ⟨[], ?_, hSame⟩
    rcases r.channel.receive_cases with ⟨e, rest, hQueue, hRun⟩ | ⟨delivery, -, hNone, hRun⟩
    · simp only [Watching.move, Watch.receive, Watch.relay, hRun, run_pure]
      refine .intro inner test { r with channel := { r.channel with queue := rest } } _ seen hInner
        hTest hLast ?_ fun hIsOpen => ?_
      · rw [hQueue] at hPrefix
        rwa [List.append_assoc]
      · rw [← hOpen hIsOpen, Relay.held, Relay.held, hQueue, List.append_assoc]
        rfl
    · simp only [Watching.move, Watch.receive, Watch.relay, hRun, run_pure, hNone,
        Option.toList_none, List.append_nil]
      exact hStart
  | stop =>
    exact ⟨[], .intro inner test { r with channel := r.channel.stop } _ seen hInner hTest hLast
      hPrefix fun hIsOpen => absurd hIsOpen Bool.false_ne_true, hSame⟩
  | drop =>
    refine ⟨[], .intro inner test { r with channel := r.channel.drop } _ seen hInner hTest hLast ?_
      fun hIsOpen => absurd hIsOpen Bool.false_ne_true, hSame⟩
    exact (List.append_nil received).symm ▸ (List.prefix_append ..).trans hPrefix

end Trails

namespace Abreast

/-- The filter takes the next event, as it is ready to and the event passes. -/
theorem hold (hTest : PassesAll same test) (hRunning : r.IsRunning) (hHand : r.inHand = none)
    {e : Event α} (hReceive : inner.receive.1 = .event e) (hSame : same st st')
    (received : List (Event α)) :
    ∃ t, same t st' ∧ (Watching.move ⟨.filtered inner test r, received⟩
      (.relay (Watch.filtered inner test r).depth)).run st =
        (⟨.filtered inner.receive.2 test (r.hold e false), received⟩, t) := by
  obtain ⟨hPasses, hNext⟩ := hTest e st st' hSame
  refine ⟨((test e).run st).2, hNext, ?_⟩
  have hTake : (Watch.filtered inner test r).take.run st =
      ((.event e, .filtered inner.receive.2 test r), st) := by
    rw [Watch.take]
    generalize inner.receive = delivered at hReceive
    obtain ⟨_, next⟩ := delivered
    obtain rfl := hReceive
    rfl
  have hStep : (Watch.filtered inner test r).step.run st =
      ((true, .filtered inner.receive.2 test (r.hold e false)), ((test e).run st).2) := by
    rw [Watch.step]
    simp only [Watch.relay, hRunning.notDone, hRunning.isOpen, hHand, Bool.not_true,
      Bool.false_eq_true, if_false, run_bind, hTake, Watch.passes, hPasses, if_true]
    rfl
  rw [Watching.move_filter, hStep]

/-- The filter delivers what it holds, as there is room for it. -/
theorem deliver (inner : Watch (StateM σ) α) (test : Event α → StateM σ Bool)
    (hRunning : r.IsRunning) {e : Event α} (hHand : r.inHand = some e) (hLast : r.isLast = false)
    (hRoom : r.channel.room ≠ 0) (received : List (Event α)) (st : σ) :
    (Watching.move ⟨.filtered inner test r, received⟩
      (.relay (Watch.filtered inner test r).depth)).run st =
        (⟨.filtered inner test (r.deliver e), received⟩, st) := by
  have hStep : (Watch.filtered inner test r).step.run st =
      ((true, .filtered inner test (r.deliver e)), st) := by
    rw [Watch.step]
    simp only [Watch.relay, hRunning.notDone, hRunning.isOpen, hHand, hLast, hRoom, Bool.not_true,
      Bool.false_eq_true, if_false]
    rfl
  rw [Watching.move_filter, hStep]

/-- An event that the consumer of the watch would receive comes through: the filter takes it,
delivers it, and its consumer receives it. -/
theorem pass (h : Abreast same ⟨.filtered inner test r, received⟩ ⟨inner, received⟩) {e : Event α}
    (hReceive : inner.receive.1 = .event e) (hSame : same st st') :
    ∃ moves, Abreast same (Watching.moveAll moves (⟨.filtered inner test r, received⟩, st)).1
        ⟨inner.receive.2, received ++ [e]⟩ ∧
      same (Watching.moveAll moves (⟨.filtered inner test r, received⟩, st)).2 st' := by
  obtain ⟨_, _, _, _, hInner, hTest, hRunning, hCapacity, hHand, hQueue⟩ := h
  obtain ⟨t, hNext, hHold⟩ := hold hTest hRunning hHand hReceive hSame received
  have hHolding : (r.hold e false).IsRunning := hRunning.congr rfl rfl
  have hRoom : (r.hold e false).channel.room ≠ 0 := by
    have hEmpty : r.channel.room = r.channel.capacity := by
      rw [Channel.room, hQueue, List.length_nil, Nat.sub_zero]
    exact hEmpty ▸ Nat.ne_of_gt hCapacity
  have hDeliver := deliver inner.receive.2 test hHolding rfl rfl hRoom received t
  have hChannel : ((r.hold e false).deliver e).channel = { r.channel with queue := [e] } := by
    rw [Relay.channel_deliver hHolding hRoom]
    exact congrArg (fun queue => { r.channel with queue := queue ++ [e] }) hQueue
  refine ⟨[.relay (Watch.filtered inner test r).depth,
    .relay (Watch.filtered inner.receive.2 test (r.hold e false)).depth, .receive], ?_⟩
  rw [Watching.moveAll_cons, hHold, Watching.moveAll_cons, hDeliver, Watching.moveAll_cons]
  simp only [Watching.move, Watch.receive, Watch.relay, hChannel]
  exact ⟨.intro inner.receive.2 test _ _ hInner.receive hTest (hHolding.congr rfl rfl)
    hCapacity rfl rfl, hNext⟩

/-- Every move of the watch itself, if it does not end the watch, is matched behind the filter. -/
theorem move (h : Abreast same v u) (hSame : same st st') {move : WatchMove}
    (hGoesOn : move.ends = false) :
    ∃ moves, Abreast same (Watching.moveAll moves (v, st)).1 ((u.move move).run st').1 ∧
      same (Watching.moveAll moves (v, st)).2 ((u.move move).run st').2 := by
  have hStart := h
  obtain ⟨inner, test, r, received, hInner, hTest, hRunning, hCapacity, hHand, hQueue⟩ := h
  cases move with
  | relay level =>
    by_cases hLevel : (Watch.filtered inner test r).depth = level
    · -- the watch itself has no relay of this level
      have hStays : inner.stepAt level = pure (false, inner) :=
        Watch.stepAt_of_depth_lt (hLevel ▸ Nat.lt_succ_self _)
      refine ⟨[], ?_, ?_⟩
      · rw [Watching.move, hStays]
        exact hStart
      · rw [Watching.move, hStays]
        exact hSame
    · obtain ⟨hResult, hNext⟩ := (hInner.stepAt level).1 st st' hSame
      have hAfter := (hInner.stepAt level).2 st
      refine ⟨[.relay level], ?_⟩
      rw [Watching.moveAll_cons, Watching.move_before hLevel]
      rw [hResult] at hAfter ⊢
      exact ⟨.intro _ test r received hAfter hTest hRunning hCapacity hHand hQueue, hNext⟩
  | receive =>
    have hReceived : (Watching.move ⟨inner, received⟩ .receive).run st' =
        (⟨inner.receive.2, received ++ inner.receive.1.event?.toList⟩, st') := rfl
    rw [hReceived]
    rcases inner.receive_cases with ⟨e, hDelivery⟩ | ⟨hNone, hStays⟩
    · rw [hDelivery]
      exact hStart.pass hDelivery hSame
    · rw [hNone, hStays, Option.toList_none, List.append_nil]
      exact ⟨[], hStart, hSame⟩
  | stop => cases hGoesOn
  | drop => cases hGoesOn

end Abreast

end

end Tenancy
