import Mathlib.Data.List.Forall2
import Tenancy.Proofs.Feed.Bus
import Tenancy.Proofs.Feed.Turn

/-!
# Watches in lockstep

Two runs are compared turn by turn.  What is in the one has a counterpart in the other: events that
are alike stand at the same places of buses, feeds and channels, so that what depends on their
number alone (what is held, what has been missed, where a producer has to wait) is the same in both.
A filter may bring events closer together: what passes it can be more alike than what comes to it.

* `ChangeBus.Alike.receive`: feeds of buses that are alike.
* `Watch.Alike.step`: watches that are alike keep step with each other.
* `FeedTurn.alike_runAll`: what their consumers have received is alike at any time.
-/

namespace Tenancy

variable {σ α β : Type}

/-! ## Events -/

/-- Events of one type, about objects that are alike or about the same thing out of band. -/
inductive Event.Alike (alike : α → β → Prop) : Event α → Event β → Prop
  | added {x : α} {y : β} (h : alike x y) : Alike alike (.added x) (.added y)
  | modified {x : α} {y : β} (h : alike x y) : Alike alike (.modified x) (.modified y)
  | deleted {x : α} {y : β} (h : alike x y) : Alike alike (.deleted x) (.deleted y)
  | error (status : Status) : Alike alike (.error status) (.error status)
  | bookmark (version : String) : Alike alike (.bookmark version) (.bookmark version)

/-- What becomes of the objects of events that are alike. -/
theorem Event.Alike.mapM {ε α' β' : Type} {alike : α → β → Prop} {alike' : α' → β' → Prop}
    {f : α → Except ε α'} {f' : β → Except ε β'}
    (hMap : ∀ x y, alike x y → Agree alike' (f x) (f' y)) {e : Event α} {e' : Event β}
    (h : e.Alike alike e') : Agree (Event.Alike alike') (e.mapM f) (e'.mapM f') := by
  cases h with
  | added hObject => exact (hMap _ _ hObject).map fun _ _ => .added
  | modified hObject => exact (hMap _ _ hObject).map fun _ _ => .modified
  | deleted hObject => exact (hMap _ _ hObject).map fun _ _ => .deleted
  | error status => exact .ok (.error status)
  | bookmark version => exact .ok (.bookmark version)

theorem forall₂_getElem? {alike : α → β → Prop} {l : List α} {l' : List β}
    (h : List.Forall₂ alike l l') (i : Nat) : Option.Rel alike l[i]? l'[i]? := by
  have hDrop := List.forall₂_drop i h
  rw [← List.head?_drop, ← List.head?_drop]
  generalize l.drop i = rest, l'.drop i = rest' at hDrop
  cases hDrop with
  | nil => exact .none
  | cons hHead _ => exact .some hHead

/-! ## Buses -/

section

variable {alike : Event α → Event β → Prop}

structure Cursor.Alike (alike : Event α → Event β → Prop) (c : Cursor α) (c' : Cursor β) :
    Prop where
  initial : List.Forall₂ alike c.initial c'.initial
  position : c.position = c'.position

inductive Receipt.Alike (alike : Event α → Event β → Prop) : Receipt α → Receipt β → Prop
  | event {e : Event α} {e' : Event β} (h : alike e e') : Alike alike (.event e) (.event e')
  | lagged (missed : Nat) : Alike alike (.lagged missed) (.lagged missed)
  | pending : Alike alike .pending .pending
  | closed : Alike alike .closed .closed

structure ChangeBus.Alike (alike : Event α → Event β → Prop) (bus : ChangeBus α)
    (bus' : ChangeBus β) : Prop where
  capacity : bus.capacity = bus'.capacity
  log : List.Forall₂ alike bus.log.toList bus'.log.toList
  feeds : List.Forall₂ (fun f f' => f.1 = f'.1 ∧ f.2.Alike alike f'.2) bus.feeds bus'.feeds
  opened : bus.opened = bus'.opened
  isClosed : bus.isClosed = bus'.isClosed

namespace ChangeBus.Alike

variable {bus : ChangeBus α} {bus' : ChangeBus β}

theorem size_log (h : bus.Alike alike bus') : bus.log.size = bus'.log.size := h.log.length_eq

theorem publish (h : bus.Alike alike bus') {e : Event α} {e' : Event β} (hEvent : alike e e') :
    (bus.publish e).Alike alike (bus'.publish e') where
  capacity := h.capacity
  log := by
    rw [ChangeBus.publish, ChangeBus.publish, Array.toList_push, Array.toList_push]
    exact List.rel_append h.log (.cons hEvent .nil)
  feeds := h.feeds
  opened := h.opened
  isClosed := h.isClosed

theorem subscribe (h : bus.Alike alike bus') {initial : List (Event α)}
    {initial' : List (Event β)} (hInitial : List.Forall₂ alike initial initial') :
    ((ChangeBus.subscribe initial).run bus).1 = ((ChangeBus.subscribe initial').run bus').1 ∧
      ((ChangeBus.subscribe initial).run bus).2.Alike alike
        ((ChangeBus.subscribe initial').run bus').2 := by
  refine ⟨h.opened, h.capacity, h.log, ?_, congrArg (· + 1) h.opened, h.isClosed⟩
  exact List.rel_append h.feeds (.cons ⟨h.opened, hInitial, h.size_log⟩ .nil)

theorem unsubscribe (h : bus.Alike alike bus') (feed : Nat) :
    (bus.unsubscribe feed).Alike alike (bus'.unsubscribe feed) where
  capacity := h.capacity
  log := h.log
  feeds := by
    refine List.rel_filter ?_ h.feeds
    rintro f f' ⟨hNumber, -⟩
    simp only [hNumber]
  opened := h.opened
  isClosed := h.isClosed

theorem advance (h : bus.Alike alike bus') {c : Cursor α} {c' : Cursor β}
    (hCursor : c.Alike alike c') :
    (bus.advance c).1.Alike alike (bus'.advance c').1 ∧
      (bus.advance c).2.Alike alike (bus'.advance c').2 := by
  obtain ⟨hInitial, hPosition⟩ := hCursor
  obtain ⟨initial, position⟩ := c
  obtain ⟨initial', _⟩ := c'
  obtain rfl : position = _ := hPosition
  cases hInitial with
  | cons hHead hTail => exact ⟨.event hHead, hTail, rfl⟩
  | nil =>
    have hOldest : bus.log.size - bus.held = bus'.log.size - bus'.held := by
      rw [h.size_log, held, held, h.capacity]
    simp only [ChangeBus.advance, hOldest]
    split
    · exact ⟨.lagged _, .nil, rfl⟩
    · have hNext := forall₂_getElem? h.log position
      rw [Array.getElem?_toList, Array.getElem?_toList] at hNext
      generalize bus.log[position]? = next, bus'.log[position]? = next' at hNext
      cases hNext with
      | some hEvent => exact ⟨.event hEvent, .nil, rfl⟩
      | none =>
        rw [h.isClosed]
        cases bus'.isClosed with
        | true => exact ⟨.closed, .nil, rfl⟩
        | false => exact ⟨.pending, .nil, rfl⟩

theorem lookup (h : bus.Alike alike bus') (feed : Nat) :
    Option.Rel (Cursor.Alike alike) (bus.feeds.lookup feed) (bus'.feeds.lookup feed) := by
  have hFeeds := h.feeds
  generalize bus.feeds = feeds, bus'.feeds = feeds' at hFeeds
  induction hFeeds with
  | nil => exact .none
  | @cons f f' _ _ hHead _ ih =>
    rw [lookup_cons_eq_ite, lookup_cons_eq_ite, hHead.1]
    split
    · exact .some hHead.2
    · exact ih

theorem receive (h : bus.Alike alike bus') (feed : Nat) :
    ((ChangeBus.receive feed).run bus).1.Alike alike ((ChangeBus.receive feed).run bus').1 ∧
      ((ChangeBus.receive feed).run bus).2.Alike alike ((ChangeBus.receive feed).run bus').2 := by
  have hCursor := h.lookup feed
  simp only [ChangeBus.receive, StateT.run]
  generalize bus.feeds.lookup feed = cursor, bus'.feeds.lookup feed = cursor' at hCursor
  cases hCursor with
  | none => exact ⟨.closed, h⟩
  | some hCursor =>
    obtain ⟨hReceipt, hNext⟩ := h.advance hCursor
    refine ⟨hReceipt, h.capacity, h.log, List.rel_map ?_ h.feeds, h.opened, h.isClosed⟩
    rintro f f' hFeed
    simp only [hFeed.1]
    split
    · exact ⟨rfl, hNext⟩
    · exact hFeed

end ChangeBus.Alike

end

/-! ## Channels and relays -/

section

variable {alike : Event α → Event α → Prop}

structure Channel.Alike (alike : Event α → Event α → Prop) (c c' : Channel α) : Prop where
  capacity : c.capacity = c'.capacity
  queue : List.Forall₂ alike c.queue c'.queue
  senders : c.senders = c'.senders
  isOpen : c.isOpen = c'.isOpen

inductive Delivery.Alike (alike : Event α → Event α → Prop) : Delivery α → Delivery α → Prop
  | event {e e' : Event α} (h : alike e e') : Alike alike (.event e) (.event e')
  | pending : Alike alike .pending .pending
  | closed : Alike alike .closed .closed

theorem Delivery.Alike.event? {delivery delivery' : Delivery α}
    (h : delivery.Alike alike delivery') :
    List.Forall₂ alike delivery.event?.toList delivery'.event?.toList := by
  cases h with
  | event hEvent => exact .cons hEvent .nil
  | pending => exact .nil
  | closed => exact .nil

namespace Channel.Alike

variable {c c' : Channel α}

theorem room (h : c.Alike alike c') : c.room = c'.room := by
  rw [Channel.room, Channel.room, h.capacity, h.queue.length_eq]

theorem send (h : c.Alike alike c') {e e' : Event α} (hEvent : alike e e') :
    ((Channel.send e).run c).2.Alike alike ((Channel.send e').run c').2 := by
  simp only [Channel.send, StateT.run, h.isOpen, h.room]
  split
  · exact h
  · split
    · exact h
    · exact ⟨h.capacity, List.rel_append h.queue (.cons hEvent .nil), h.senders, rfl⟩

theorem receive (h : c.Alike alike c') :
    (Channel.receive.run c).1.Alike alike (Channel.receive.run c').1 ∧
      (Channel.receive.run c).2.Alike alike (Channel.receive.run c').2 := by
  obtain ⟨capacity, queue, senders, isOpen⟩ := c
  obtain ⟨_, queue', _, _⟩ := c'
  obtain ⟨rfl, hQueue, rfl, rfl⟩ := h
  cases hQueue with
  | cons hHead hTail => exact ⟨.event hHead, rfl, hTail, rfl, rfl⟩
  | nil =>
    refine ⟨?_, rfl, .nil, rfl, rfl⟩
    simp only [Channel.receive, StateT.run]
    split
    · exact .closed
    · exact .pending

theorem dropSender (h : c.Alike alike c') : c.dropSender.Alike alike c'.dropSender :=
  ⟨h.capacity, h.queue, congrArg (· - 1) h.senders, h.isOpen⟩

theorem stop (h : c.Alike alike c') : c.stop.Alike alike c'.stop :=
  ⟨h.capacity, h.queue, h.senders, rfl⟩

theorem drop (h : c.Alike alike c') : c.drop.Alike alike c'.drop :=
  ⟨h.capacity, .nil, h.senders, rfl⟩

end Channel.Alike

structure Relay.Alike (alike : Event α → Event α → Prop) (r r' : Relay α) : Prop where
  channel : r.channel.Alike alike r'.channel
  inHand : Option.Rel alike r.inHand r'.inHand
  isLast : r.isLast = r'.isLast

namespace Relay.Alike

variable {r r' : Relay α}

theorem ofCapacity (alike : Event α → Event α → Prop) (capacity : Nat) :
    (Relay.ofCapacity capacity).Alike alike (.ofCapacity capacity) :=
  ⟨⟨rfl, .nil, rfl, rfl⟩, .none, rfl⟩

theorem isDone (h : r.Alike alike r') : r.isDone = r'.isDone := by
  rw [Relay.isDone, Relay.isDone, h.channel.senders]

theorem finish (h : r.Alike alike r') : r.finish.Alike alike r'.finish :=
  ⟨h.channel.dropSender, .none, h.isLast⟩

theorem hold (h : r.Alike alike r') {e e' : Event α} (hEvent : alike e e') (isLast : Bool) :
    (r.hold e isLast).Alike alike (r'.hold e' isLast) :=
  ⟨h.channel, .some hEvent, rfl⟩

theorem deliver (h : r.Alike alike r') {e e' : Event α} (hEvent : alike e e') :
    (r.deliver e).Alike alike (r'.deliver e') :=
  ⟨h.channel.send hEvent, .none, h.isLast⟩

end Relay.Alike

end

/-! ## Watches -/

/-- Both events pass a test or neither does, and if they pass they are alike. -/
def Screened (alike : Event α → Event α → Prop) (e e' : Event α) (passes passes' : Bool) : Prop :=
  passes = passes' ∧ (passes = true → alike e e')

inductive Taken.Alike (alike : Event α → Event α → Prop) : Taken α → Taken α → Prop
  | event {e e' : Event α} (h : alike e e') : Alike alike (.event e) (.event e')
  | last {e e' : Event α} (h : alike e e') : Alike alike (.last e) (.last e')
  | pending : Alike alike .pending .pending
  | ended : Alike alike .ended .ended

/-- The watches show events that are alike, by sources that keep step with each other, and by tests
that keep step with each other for what comes to them. -/
inductive Watch.Alike (same : σ → σ → Prop) :
    (Event α → Event α → Prop) → Watch (StateM σ) α → Watch (StateM σ) α → Prop
  | relayed {alike : Event α → Event α → Prop} {source source' : Source (StateM σ) α}
      {r r' : Relay α} (hTake : Matches same (Taken.Alike alike) source.take.run source'.take.run)
      (hCancel : Matches same Eq source.cancel.run source'.cancel.run)
      (hRelay : r.Alike alike r') : Alike same alike (.relayed source r) (.relayed source' r')
  | filtered {before alike : Event α → Event α → Prop} {inner inner' : Watch (StateM σ) α}
      {test test' : Event α → StateM σ Bool} {r r' : Relay α}
      (hInner : Alike same before inner inner')
      (hTest : ∀ e e', before e e' →
        Matches same (Screened alike e e') (test e).run (test' e').run)
      (hRelay : r.Alike alike r') :
      Alike same alike (.filtered inner test r) (.filtered inner' test' r')

/-- What the last relays of two watches take, and the watches afterwards.  An event has still to be
tested. -/
inductive Watch.NextAlike (same : σ → σ → Prop) (alike : Event α → Event α → Prop) :
    Taken α × Watch (StateM σ) α → Taken α × Watch (StateM σ) α → Prop
  | event {e e' : Event α} {w w' : Watch (StateM σ) α} (h : w.Alike same alike w')
      (hTest : Matches same (Screened alike e e') (w.passes e).run (w'.passes e').run) :
      NextAlike same alike (.event e, w) (.event e', w')
  | last {e e' : Event α} {w w' : Watch (StateM σ) α} (h : w.Alike same alike w')
      (hEvent : alike e e') : NextAlike same alike (.last e, w) (.last e', w')
  | pending {w w' : Watch (StateM σ) α} (h : w.Alike same alike w') :
      NextAlike same alike (.pending, w) (.pending, w')
  | ended {w w' : Watch (StateM σ) α} (h : w.Alike same alike w') :
      NextAlike same alike (.ended, w) (.ended, w')

namespace Watch.Alike

variable {same : σ → σ → Prop} {alike : Event α → Event α → Prop} {w w' : Watch (StateM σ) α}
  {r r' : Relay α}

theorem relay (h : w.Alike same alike w') : w.relay.Alike alike w'.relay := by
  cases h with
  | relayed _ _ hRelay => exact hRelay
  | filtered _ _ hRelay => exact hRelay

theorem withRelay (h : w.Alike same alike w') (hRelay : r.Alike alike r') :
    (w.withRelay r).Alike same alike (w'.withRelay r') := by
  cases h with
  | relayed hTake hCancel _ => exact .relayed hTake hCancel hRelay
  | filtered hInner hTest _ => exact .filtered hInner hTest hRelay

theorem depth (h : w.Alike same alike w') : w.depth = w'.depth := by
  induction h with
  | relayed => rfl
  | filtered _ _ _ ih => exact congrArg (· + 1) ih

theorem receive (h : w.Alike same alike w') :
    w.receive.1.Alike alike w'.receive.1 ∧ w.receive.2.Alike same alike w'.receive.2 := by
  obtain ⟨hDelivery, hChannel⟩ := h.relay.channel.receive
  exact ⟨hDelivery, h.withRelay ⟨hChannel, h.relay.inHand, h.relay.isLast⟩⟩

theorem stop (h : w.Alike same alike w') : w.stop.Alike same alike w'.stop :=
  h.withRelay ⟨h.relay.channel.stop, h.relay.inHand, h.relay.isLast⟩

theorem drop (h : w.Alike same alike w') : w.drop.Alike same alike w'.drop :=
  h.withRelay ⟨h.relay.channel.drop, h.relay.inHand, h.relay.isLast⟩

theorem take (h : w.Alike same alike w') :
    Matches same (NextAlike same alike) w.take.run w'.take.run := by
  cases h with
  | relayed hTake hCancel hRelay =>
    refine matches_bind hTake fun taken taken' hTaken => matches_pure ?_
    cases hTaken with
    | event hEvent =>
      exact .event (.relayed hTake hCancel hRelay) (matches_pure ⟨rfl, fun _ => hEvent⟩)
    | last hEvent => exact .last (.relayed hTake hCancel hRelay) hEvent
    | pending => exact .pending (.relayed hTake hCancel hRelay)
    | ended => exact .ended (.relayed hTake hCancel hRelay)
  | @filtered _ _ inner inner' _ _ _ _ hInner hTest hRelay =>
    obtain ⟨hDelivery, hAfter⟩ := hInner.receive
    rw [Watch.take, Watch.take]
    generalize inner.receive = received, inner'.receive = received' at hDelivery hAfter
    obtain ⟨delivery, inner⟩ := received
    obtain ⟨delivery', inner'⟩ := received'
    cases hDelivery with
    | event hEvent => exact matches_pure (.event (.filtered hAfter hTest hRelay) (hTest _ _ hEvent))
    | pending => exact matches_pure (.pending (.filtered hAfter hTest hRelay))
    | closed => exact matches_pure (.ended (.filtered hAfter hTest hRelay))

theorem finish (h : w.Alike same alike w') :
    Matches same (Watch.Alike same alike) w.finish.run w'.finish.run := by
  cases h with
  | relayed hTake hCancel hRelay =>
    exact matches_bind hCancel fun _ _ _ => matches_pure (.relayed hTake hCancel hRelay.finish)
  | filtered hInner hTest hRelay =>
    exact matches_pure (.filtered hInner.drop hTest hRelay.finish)

def StepAlike (same : σ → σ → Prop) (alike : Event α → Event α → Prop)
    (x x' : Bool × Watch (StateM σ) α) : Prop :=
  x.1 = x'.1 ∧ x.2.Alike same alike x'.2

/-- One step of the last relays of watches that are alike. -/
theorem step (h : w.Alike same alike w') :
    Matches same (StepAlike same alike) w.step.run w'.step.run := by
  have hRelay := h.relay
  have hEnd {w w' : Watch (StateM σ) α} (h : w.Alike same alike w') :
      Matches same (StepAlike same alike) (do return (true, ← w.finish) : StateM σ _).run
        (do return (true, ← w'.finish) : StateM σ _).run :=
    matches_bind h.finish fun _ _ hAfter => matches_pure ⟨rfl, hAfter⟩
  rw [Watch.step, Watch.step, hRelay.isDone, hRelay.channel.isOpen]
  cases w'.relay.isDone with
  | true => exact matches_pure ⟨rfl, h⟩
  | false =>
    cases w'.relay.channel.isOpen with
    | false => exact hEnd h
    | true =>
      have hHand := hRelay.inHand
      generalize w.relay.inHand = hand, w'.relay.inHand = hand' at hHand
      cases hHand with
      | some hEvent =>
        have hDelivered := h.withRelay (hRelay.deliver hEvent)
        simp only [hRelay.channel.room, hRelay.isLast]
        by_cases hRoom : w'.relay.channel.room = 0
        · simp only [hRoom]
          exact matches_pure ⟨rfl, h⟩
        · simp only [hRoom]
          cases w'.relay.isLast with
          | false => exact matches_pure ⟨rfl, hDelivered⟩
          | true => exact hEnd hDelivered
      | none =>
        refine matches_bind h.take fun taken taken' hTaken => ?_
        cases hTaken with
        | event hNext hTest =>
          refine matches_bind hTest fun passes passes' hPasses => ?_
          obtain ⟨rfl, hEvent⟩ := hPasses
          cases passes with
          | true => exact matches_pure ⟨rfl, hNext.withRelay (hNext.relay.hold (hEvent rfl) false)⟩
          | false => exact matches_pure ⟨rfl, hNext⟩
        | last hNext hEvent =>
          exact matches_pure ⟨rfl, hNext.withRelay (hNext.relay.hold hEvent true)⟩
        | pending hNext => exact matches_pure ⟨rfl, hNext⟩
        | ended hNext => exact hEnd hNext

theorem stepAt (h : w.Alike same alike w') (level : Nat) :
    Matches same (StepAlike same alike) (w.stepAt level).run (w'.stepAt level).run := by
  induction h with
  | relayed hTake hCancel hRelay =>
    have hWatch := Watch.Alike.relayed hTake hCancel hRelay
    rw [Watch.stepAt, Watch.stepAt, hWatch.depth]
    split
    · exact hWatch.step
    · exact matches_pure ⟨rfl, hWatch⟩
  | filtered hInner hTest hRelay ih =>
    have hWatch := Watch.Alike.filtered hInner hTest hRelay
    rw [Watch.stepAt, Watch.stepAt, hWatch.depth]
    split
    · exact hWatch.step
    · refine matches_bind ih fun _ _ hStep => matches_pure ⟨hStep.1, ?_⟩
      exact .filtered hStep.2 hTest hRelay

end Watch.Alike

/-! ## Runs -/

section

variable {same : σ → σ → Prop} {alike : Event α → Event α → Prop}

structure Watching.Alike (same : σ → σ → Prop) (alike : Event α → Event α → Prop)
    (v v' : Watching σ α) : Prop where
  watch : v.watch.Alike same alike v'.watch
  received : List.Forall₂ alike v.received v'.received

theorem Watching.Alike.move {v v' : Watching σ α} (h : v.Alike same alike v')
    (move : WatchMove) :
    Matches same (Watching.Alike same alike) (v.move move).run (v'.move move).run := by
  cases move with
  | relay level =>
    exact matches_bind (h.watch.stepAt level) fun _ _ hStep => matches_pure ⟨hStep.2, h.received⟩
  | receive =>
    obtain ⟨hDelivery, hAfter⟩ := h.watch.receive
    exact matches_pure ⟨hAfter, List.rel_append h.received hDelivery.event?⟩
  | stop => exact matches_pure ⟨h.watch.stop, h.received⟩
  | drop => exact matches_pure ⟨h.watch.drop, h.received⟩

inductive FeedTurn.Alike (same : σ → σ → Prop) : FeedTurn σ → FeedTurn σ → Prop
  | watch (move : WatchMove) : Alike same (.watch move) (.watch move)
  | elsewhere {change change' : σ → σ}
      (h : ∀ st st', same st st' → same (change st) (change' st')) :
      Alike same (.elsewhere change) (.elsewhere change')

/-- Watches that are alike stay so, and so do the states around them. -/
theorem FeedTurn.alike_runAll {v v' : Watching σ α} {st st' : σ} (h : v.Alike same alike v')
    (hSame : same st st') {turns turns' : List (FeedTurn σ)}
    (hTurns : List.Forall₂ (FeedTurn.Alike same) turns turns') :
    (runAll turns (v, st)).1.Alike same alike (runAll turns' (v', st')).1 ∧
      same (runAll turns (v, st)).2 (runAll turns' (v', st')).2 := by
  induction hTurns generalizing v v' st st' with
  | nil => exact ⟨h, hSame⟩
  | cons hTurn _ ih =>
    cases hTurn with
    | watch move =>
      obtain ⟨hMoved, hAfter⟩ := h.move move st st' hSame
      exact ih hMoved hAfter
    | elsewhere hChange => exact ih h (hChange st st' hSame)

end

end Tenancy
