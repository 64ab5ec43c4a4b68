import Mathlib.Algebra.Ring.Nat
import Mathlib.Data.List.Forall2
import Tenancy.Proofs.Feed.Bus

/-!
# The account of a feed

A feed accounts for every event that is published while it is open: it returns the event, or counts
it among the events that it has missed, or the event is still pending.  This holds at every moment
of every run of a bus, whatever happens to the bus and to its other feeds.

* `Receipt.Passes`: the events that a receipt accounts for, those returned and those missed.
* `Accounted`: the receipts of a feed pass one event after the other, an invariant of every step
  (`Accounted.step`).
* `feed_accounts_for_every_event`: the account, what a feed returns next, and the count of all that
  was ever published.
-/

namespace Tenancy

variable {α : Type}

/-! ## Runs -/

inductive BusStep (α : Type) where
  | publish (e : Event α)
  | subscribe (initial : List (Event α))
  | receive (feed : Nat)
  | drop (feed : Nat)
  | close

/-- A bus, and what its feeds have returned so far, by their numbers. -/
structure BusRecord (α : Type) where
  bus : ChangeBus α
  returned : Nat → List (Receipt α)

def BusRecord.fresh (capacity : Nat) : BusRecord α := ⟨.ofCapacity capacity, fun _ => []⟩

namespace BusStep

def isPublish : BusStep α → Bool
  | .publish _ => true
  | _ => false

/-- The record after a step.  Nothing can be received from a feed that is not open. -/
def run (step : BusStep α) (r : BusRecord α) : BusRecord α :=
  match step with
  | .publish e => { r with bus := r.bus.publish e }
  | .subscribe initial => { r with bus := ((ChangeBus.subscribe initial).run r.bus).2 }
  | .receive feed =>
    match r.bus.cursor? feed with
    | none => r
    | some _ =>
      let outcome := (ChangeBus.receive feed).run r.bus
      ⟨outcome.2, fun other =>
        if other = feed then r.returned feed ++ [outcome.1] else r.returned other⟩
  | .drop feed => { r with bus := r.bus.unsubscribe feed }
  | .close => { r with bus := r.bus.close }

def runAll (steps : List (BusStep α)) (r : BusRecord α) : BusRecord α :=
  steps.foldl (fun r step => step.run r) r

def Spares (feed : Nat) : BusStep α → Prop
  | .publish _ => False
  | .receive other | .drop other => other ≠ feed
  | .subscribe _ | .close => True

end BusStep

/-! ## Receipts and events -/

namespace Receipt

/-- The number of events that the receipt says were missed. -/
def missed : Receipt α → Nat
  | .lagged missed => missed
  | _ => 0

/-- The receipt accounts for exactly these events: it returns the only one of them, or it counts
them as missed. -/
def Passes : Receipt α → List (Event α) → Prop
  | .event e, passed => passed = [e]
  | .lagged missed, passed => passed.length = missed
  | .pending, passed | .closed, passed => passed = []

variable {receipt : Receipt α} {passed : List (Event α)}

theorem Passes.length (h : receipt.Passes passed) :
    passed.length = receipt.event?.toList.length + receipt.missed := by
  cases receipt with
  | event e =>
    obtain rfl : passed = [e] := h
    rfl
  | lagged n =>
    change passed.length = n at h
    simp [event?, Receipt.missed, h]
  | pending | closed =>
    obtain rfl : passed = [] := h
    rfl

theorem Passes.sublist (h : receipt.Passes passed) : receipt.event?.toList.Sublist passed := by
  cases receipt with
  | event e =>
    obtain rfl : passed = [e] := h
    exact List.Sublist.refl _
  | lagged | pending | closed => exact List.nil_sublist _

theorem passes_nil (hEvent : receipt.event? = none) (hLag : receipt.isLag = false) :
    receipt.Passes [] := by
  cases receipt with
  | event e => cases hEvent
  | lagged n => cases hLag
  | pending | closed => rfl

variable {receipts : List (Receipt α)} {parts : List (List (Event α))}

/-- Every event that is accounted for was returned or counted as missed. -/
theorem length_of_passes (h : List.Forall₂ Passes receipts parts) :
    parts.flatten.length =
      (receipts.filterMap event?).length + (receipts.map Receipt.missed).sum := by
  induction h with
  | nil => rfl
  | @cons receipt passed receipts parts hHead _ ih =>
    have hLength := hHead.length
    rw [List.flatten_cons, List.length_append, ih, List.map_cons, List.sum_cons, hLength]
    cases hEvent : receipt.event? with
    | none =>
      rw [List.filterMap_cons_none hEvent]
      simp
      omega
    | some e =>
      rw [List.filterMap_cons_some hEvent]
      simp
      omega

/-- Events are returned in their order, and none of them twice. -/
theorem sublist_of_passes (h : List.Forall₂ Passes receipts parts) :
    (receipts.filterMap event?).Sublist parts.flatten := by
  induction h with
  | nil => exact List.Sublist.refl _
  | @cons receipt passed receipts parts hHead _ ih =>
    rw [List.flatten_cons]
    have hSublist := hHead.sublist
    cases hEvent : receipt.event? with
    | none =>
      rw [List.filterMap_cons_none hEvent]
      exact ih.trans (List.sublist_append_right _ _)
    | some e =>
      rw [List.filterMap_cons_some hEvent]
      rw [hEvent] at hSublist
      exact hSublist.append ih

end Receipt

/-! ## What a step does to a feed -/

namespace ChangeBus

variable {bus : ChangeBus α} {feed other : Nat} {cursor cursor' : Cursor α} {receipt : Receipt α}

theorem cursor?_subscribe (hOpen : bus.cursor? feed = some cursor) (initial : List (Event α)) :
    ((subscribe initial).run bus).2.cursor? feed = some cursor := by
  rw [cursor?] at hOpen ⊢
  refine (lookup_append_single bus.feeds _ feed).trans ?_
  rw [hOpen]
  rfl

theorem publishedSince_length (bus : ChangeBus α) (start : Nat) :
    (bus.publishedSince start).length = bus.published - start := by
  rw [publishedSince, List.length_drop, Array.length_toList, published]

/-- A feed without initial events passes on by the events that its next receipt accounts for. -/
theorem Advance.passes (h : bus.Advance cursor (receipt, cursor')) (hInitial : cursor.initial = [])
    (hPosition : cursor.position ≤ bus.published) :
    ∃ passed, receipt.Passes passed ∧
      bus.publishedSince cursor.position = passed ++ bus.publishedSince cursor'.position ∧
      cursor'.initial = [] ∧ cursor.position ≤ cursor'.position ∧
      cursor'.position ≤ bus.published := by
  cases h with
  | initial e rest hSome =>
    rw [hInitial] at hSome
    cases hSome
  | lagged missed _ hBehind hMissed =>
    refine ⟨(bus.publishedSince cursor.position).take missed, ?_, ?_, hInitial, ?_, ?_⟩
    · change List.length _ = missed
      rw [List.length_take, publishedSince_length]
      omega
    · have hDrop : bus.publishedSince (bus.published - bus.held) =
          (bus.publishedSince cursor.position).drop missed := by
        have hSum : cursor.position + missed = bus.published - bus.held := by omega
        rw [publishedSince, publishedSince, List.drop_drop, hSum]
      rw [hDrop, List.take_append_drop]
    · exact Nat.le_of_lt hBehind
    · exact Nat.sub_le _ _
  | live e _ hNext =>
    obtain ⟨hLt, hGet⟩ := List.getElem?_eq_some_iff.1 hNext
    refine ⟨[e], rfl, ?_, hInitial, Nat.le_succ _, Nat.succ_le_of_lt hLt⟩
    rw [publishedSince, publishedSince, List.drop_eq_getElem_cons hLt, hGet]
    rfl
  | waiting _ hEvent hLag =>
    exact ⟨[], Receipt.passes_nil hEvent hLag, rfl, hInitial, Nat.le_refl _, hPosition⟩

/-- The events that are pending for a feed: those published since it was opened that it has neither
returned nor counted as missed. -/
def pendingFor (bus : ChangeBus α) (feed : Nat) : List (Event α) :=
  match bus.cursor? feed with
  | some cursor => bus.publishedSince cursor.position
  | none => []

theorem pendingFor_eq (hOpen : bus.cursor? feed = some cursor) :
    bus.pendingFor feed = bus.publishedSince cursor.position := by
  rw [pendingFor, hOpen]

end ChangeBus

/-- What a feed returns from a bus that holds the newest `held` events: first the initial events
that are left; then, if more events are pending than are held, the number of those that are not;
then the first pending event.  Only if there is none it is told that the bus is gone. -/
def Receipt.due (held : Nat) (isClosed : Bool) (left waiting : List (Event α)) : Receipt α :=
  match left with
  | e :: _ => .event e
  | [] =>
    if held < waiting.length then .lagged (waiting.length - held)
    else
      match waiting with
      | e :: _ => .event e
      | [] => if isClosed then .closed else .pending

theorem Receipt.due_nil (held : Nat) (isClosed : Bool) (waiting : List (Event α)) :
    Receipt.due held isClosed [] waiting =
      if held < waiting.length then .lagged (waiting.length - held)
      else waiting.head?.elim (if isClosed then .closed else .pending) .event := by
  cases waiting <;> rfl

namespace ChangeBus

variable {bus : ChangeBus α} {cursor : Cursor α}

theorem advance_eq_due (bus : ChangeBus α) (cursor : Cursor α) :
    (bus.advance cursor).1 =
      .due bus.held bus.isClosed cursor.initial (bus.publishedSince cursor.position) := by
  have hLength := bus.publishedSince_length cursor.position
  rw [advance]
  cases hInitial : cursor.initial with
  | cons e rest => rfl
  | nil =>
    dsimp only [Receipt.due]
    have hBehind : cursor.position < bus.log.size - bus.held ↔
        bus.held < (bus.publishedSince cursor.position).length := by
      rw [hLength, published]
      omega
    by_cases hMore : bus.held < (bus.publishedSince cursor.position).length
    · rw [if_pos (hBehind.2 hMore), if_pos hMore]
      have hMissed : bus.log.size - bus.held - cursor.position =
          (bus.publishedSince cursor.position).length - bus.held := by
        rw [hLength, published]
        omega
      rw [hMissed]
    · rw [if_neg (mt hBehind.1 hMore), if_neg hMore]
      have hHead : bus.log[cursor.position]? =
          (bus.publishedSince cursor.position).head? := by
        rw [publishedSince, List.head?_drop, Array.getElem?_toList]
      rw [hHead]
      cases bus.publishedSince cursor.position <;> rfl

/-- Directly after it has fallen behind, a feed has exactly the events pending that are held. -/
theorem advance_after_lag {missed : Nat} (hLag : (bus.advance cursor).1 = .lagged missed) :
    (bus.advance cursor).2 = ⟨[], bus.published - bus.held⟩ ∧ bus.held < bus.published := by
  have hCases := advance_cases bus cursor
  generalize bus.advance cursor = next at hCases hLag
  cases hCases with
  | initial => cases hLag
  | lagged _ hInitial hBehind =>
    rw [hInitial]
    exact ⟨rfl, by omega⟩
  | live => cases hLag
  | waiting receipt _ hNot =>
    obtain rfl : receipt = .lagged missed := hLag
    cases hNot

end ChangeBus

/-! ## The invariant -/

/-- The feed, opened with `initial` when `start` events had been published, has returned initial
events and, when there were no more of them, receipts that pass the events one after the other. -/
structure Accounted (r : BusRecord α) (feed start : Nat) (initial : List (Event α))
    (cursor : Cursor α) : Prop where
  isOpen : r.bus.cursor? feed = some cursor
  started : start ≤ cursor.position
  position_le : cursor.position ≤ r.bus.published
  account : ∃ given live parts, initial = given ++ cursor.initial ∧
    r.returned feed = given.map .event ++ live ∧ (cursor.initial ≠ [] → live = []) ∧
    List.Forall₂ Receipt.Passes live parts ∧
    r.bus.publishedSince start = parts.flatten ++ r.bus.publishedSince cursor.position

namespace Accounted

variable {r : BusRecord α} {feed start : Nat} {initial : List (Event α)} {cursor : Cursor α}

theorem opened (hNumbered : r.bus.WellNumbered) (hFresh : r.returned r.bus.opened = [])
    (initial : List (Event α)) :
    Accounted ((BusStep.subscribe initial).run r) r.bus.opened r.bus.published initial
      ⟨initial, r.bus.published⟩ where
  isOpen := (ChangeBus.follows_subscribe hNumbered initial).isOpen
  started := Nat.le_refl _
  position_le := Nat.le_refl _
  account := ⟨[], [], [], rfl, hFresh, fun _ => rfl, .nil, rfl⟩

variable (h : Accounted r feed start initial cursor)

include h

/-- What leaves the log, the feed and its receipts alone makes no difference. -/
theorem congr {r' : BusRecord α} (hLog : r'.bus.log = r.bus.log)
    (hFeed : r'.bus.cursor? feed = r.bus.cursor? feed)
    (hReturned : r'.returned feed = r.returned feed) :
    Accounted r' feed start initial cursor := by
  have hSince : ∀ n, r'.bus.publishedSince n = r.bus.publishedSince n := by
    intro n
    rw [ChangeBus.publishedSince, ChangeBus.publishedSince, hLog]
  refine ⟨hFeed.trans h.isOpen, h.started, ?_, ?_⟩
  · have hPosition := h.position_le
    rwa [ChangeBus.published, ← hLog] at hPosition
  · rw [hReturned]
    simp only [hSince]
    exact h.account

theorem publish (e : Event α) :
    Accounted ((BusStep.publish e).run r) feed start initial cursor := by
  have hStart := Nat.le_trans h.started h.position_le
  obtain ⟨given, live, parts, hInitial, hReturned, hLive, hPasses, hSince⟩ := h.account
  refine ⟨h.isOpen, h.started, ?_, given, live, parts, hInitial, hReturned, hLive, hPasses, ?_⟩
  · have hMore : (r.bus.publish e).published = r.bus.published + 1 := Array.size_push ..
    have hPosition := h.position_le
    simp only [BusStep.run]
    omega
  · simp only [BusStep.run]
    rw [ChangeBus.publishedSince_publish e hStart, ChangeBus.publishedSince_publish e h.position_le,
      hSince, List.append_assoc]

theorem receive : ∃ cursor',
    Accounted ((BusStep.receive feed).run r) feed start initial cursor' := by
  obtain ⟨given, live, parts, hInitial, hReturned, hLive, hPasses, hSince⟩ := h.account
  have hRun := ChangeBus.receive_eq h.isOpen
  have hNext := ChangeBus.cursor?_receive_self h.isOpen
  have hLog := ChangeBus.log_receive r.bus feed
  have hCases := ChangeBus.advance_cases r.bus cursor
  have hReceipt : ((ChangeBus.receive feed).run r.bus).1 = (r.bus.advance cursor).1 := by rw [hRun]
  simp only [BusStep.run, h.isOpen]
  generalize (ChangeBus.receive feed).run r.bus = outcome at hNext hLog hReceipt
  obtain ⟨receipt, bus⟩ := outcome
  generalize r.bus.advance cursor = next at hNext hCases hReceipt
  obtain ⟨receipt', cursor'⟩ := next
  obtain rfl : receipt = receipt' := hReceipt
  change bus.log = r.bus.log at hLog
  have hSame : ∀ n, bus.publishedSince n = r.bus.publishedSince n := by
    intro n
    rw [ChangeBus.publishedSince, ChangeBus.publishedSince, hLog]
  have hPublished : bus.published = r.bus.published := by
    rw [ChangeBus.published, ChangeBus.published, hLog]
  refine ⟨cursor', ?_⟩
  cases hLeft : cursor.initial with
  | cons e rest =>
    -- The feed returns the next of its initial events, and has returned nothing else yet.
    obtain rfl := hLive (by simp [hLeft])
    cases hCases with
    | initial e' rest' hSome =>
      rw [hLeft] at hSome
      obtain ⟨rfl, rfl⟩ := List.cons.inj hSome
      refine ⟨hNext, h.started, hPublished ▸ h.position_le, given ++ [e], [], parts, ?_, ?_,
        fun _ => rfl, hPasses, ?_⟩
      · rw [hInitial, hLeft]
        simp
      · simp [hReturned]
      · simp only [hSame]
        exact hSince
    | lagged _ hNone | live _ hNone | waiting _ _ _ hNone =>
      rw [hLeft] at hNone
      cases hNone
  | nil =>
    obtain ⟨passed, hPassed, hPass, hNone, hForward, hPosition⟩ :=
      hCases.passes hLeft h.position_le
    refine ⟨hNext, Nat.le_trans h.started hForward, hPublished ▸ hPosition, given,
      live ++ [receipt], parts ++ [passed], ?_, ?_, ?_, ?_, ?_⟩
    · rw [hInitial, hLeft, hNone]
    · simp [hReturned]
    · exact fun hSome => absurd hNone hSome
    · exact List.rel_append hPasses (.cons hPassed .nil)
    · simp only [hSame]
      rw [hSince, hPass]
      simp

/-- A step that spares the feed, or that publishes, leaves the feed where it is. -/
theorem spared {step : BusStep α} (hSpares : step.Spares feed) :
    (step.run r).bus.log = r.bus.log ∧
      (step.run r).bus.cursor? feed = r.bus.cursor? feed ∧
      (step.run r).returned feed = r.returned feed := by
  cases step with
  | publish e => exact absurd hSpares id
  | subscribe others =>
    exact ⟨rfl, (ChangeBus.cursor?_subscribe h.isOpen others).trans h.isOpen.symm, rfl⟩
  | receive other =>
    change other ≠ feed at hSpares
    simp only [BusStep.run]
    cases r.bus.cursor? other with
    | none => exact ⟨rfl, rfl, rfl⟩
    | some _ =>
      exact ⟨ChangeBus.log_receive r.bus other, ChangeBus.cursor?_receive_of_ne hSpares,
        if_neg hSpares.symm⟩
  | drop other =>
    change other ≠ feed at hSpares
    exact ⟨rfl, ChangeBus.lookup_filter_of_ne hSpares r.bus.feeds, rfl⟩
  | close => exact ⟨rfl, rfl, rfl⟩

/-- The account of a feed is kept by all that happens, as long as the feed is not dropped. -/
theorem step {step : BusStep α} (hKept : step ≠ .drop feed) :
    ∃ cursor', Accounted (step.run r) feed start initial cursor' := by
  by_cases hSpares : step.Spares feed
  · obtain ⟨hLog, hFeed, hReturned⟩ := h.spared hSpares
    exact ⟨cursor, h.congr hLog hFeed hReturned⟩
  · cases step with
    | publish e => exact ⟨cursor, h.publish e⟩
    | receive other =>
      obtain rfl : other = feed := not_not.1 hSpares
      exact h.receive
    | drop other =>
      obtain rfl : other = feed := not_not.1 hSpares
      exact absurd rfl hKept
    | subscribe _ | close => exact absurd trivial hSpares

omit h in
theorem runAll {steps : List (BusStep α)} (h : Accounted r feed start initial cursor)
    (hKept : .drop feed ∉ steps) :
    ∃ cursor', Accounted (BusStep.runAll steps r) feed start initial cursor' := by
  induction steps generalizing r cursor with
  | nil => exact ⟨cursor, h⟩
  | cons step steps ih =>
    rw [List.mem_cons, not_or] at hKept
    obtain ⟨cursor', hStep⟩ := h.step (Ne.symm hKept.1)
    exact ih hStep hKept.2

omit h in
theorem spared_all {steps : List (BusStep α)} (h : Accounted r feed start initial cursor)
    (hSpares : ∀ step ∈ steps, step.Spares feed) :
    (BusStep.runAll steps r).bus.log = r.bus.log ∧
      (BusStep.runAll steps r).bus.cursor? feed = r.bus.cursor? feed := by
  induction steps generalizing r with
  | nil => exact ⟨rfl, rfl⟩
  | cons step steps ih =>
    obtain ⟨hFirst, hRest⟩ := List.forall_mem_cons.1 hSpares
    obtain ⟨hLog, hFeed, hReturned⟩ := h.spared hFirst
    obtain ⟨hLogs, hFeeds⟩ := ih (h.congr hLog hFeed hReturned) hRest
    exact ⟨hLogs.trans hLog, hFeeds.trans hFeed⟩

end Accounted

/-! ## Whole runs -/

namespace BusStep

variable {r : BusRecord α}

theorem capacity_run (step : BusStep α) (r : BusRecord α) :
    (step.run r).bus.capacity = r.bus.capacity := by
  cases step with
  | receive feed =>
    simp only [run]
    cases hOpen : r.bus.cursor? feed with
    | none => rfl
    | some cursor =>
      dsimp only
      rw [ChangeBus.receive_eq hOpen]
  | publish _ | subscribe _ | drop _ | close => rfl

theorem published_run (step : BusStep α) (r : BusRecord α) :
    (step.run r).bus.published = r.bus.published + if step.isPublish then 1 else 0 := by
  cases step with
  | publish e => exact Array.size_push ..
  | receive feed =>
    simp only [run]
    cases r.bus.cursor? feed with
    | none => rfl
    | some cursor =>
      exact congrArg Array.size (ChangeBus.log_receive r.bus feed)
  | subscribe _ | drop _ | close => rfl

theorem wellNumbered_run (hNumbered : r.bus.WellNumbered) (step : BusStep α) :
    (step.run r).bus.WellNumbered := by
  cases step with
  | publish _ | close => exact hNumbered
  | subscribe initial => exact hNumbered.subscribe initial
  | drop feed => exact hNumbered.unsubscribe feed
  | receive feed =>
    simp only [run]
    cases r.bus.cursor? feed with
    | none => exact hNumbered
    | some cursor => exact hNumbered.receive feed

/-- Numbers that were not given out have returned nothing. -/
theorem returned_run (hNumbered : r.bus.WellNumbered)
    (hFresh : ∀ feed, r.bus.opened ≤ feed → r.returned feed = []) (step : BusStep α) :
    ∀ feed, (step.run r).bus.opened ≤ feed → (step.run r).returned feed = [] := by
  intro feed hFeed
  cases step with
  | publish _ | drop _ | close => exact hFresh feed hFeed
  | subscribe _ => exact hFresh feed (Nat.le_of_succ_le hFeed)
  | receive other =>
    simp only [run] at hFeed ⊢
    cases hOpen : r.bus.cursor? other with
    | none =>
      rw [hOpen] at hFeed
      exact hFresh feed hFeed
    | some cursor =>
      rw [hOpen] at hFeed
      dsimp only at hFeed
      rw [ChangeBus.receive_eq hOpen] at hFeed
      have hOther : feed ≠ other := by
        rintro rfl
        rw [ChangeBus.lookup_eq_none hNumbered hFeed] at hOpen
        cases hOpen
      dsimp only
      rw [if_neg hOther]
      exact hFresh feed hFeed

theorem capacity_runAll (steps : List (BusStep α)) (r : BusRecord α) :
    (runAll steps r).bus.capacity = r.bus.capacity := by
  induction steps generalizing r with
  | nil => rfl
  | cons step steps ih => exact (ih _).trans (capacity_run step r)

theorem published_runAll (steps : List (BusStep α)) (r : BusRecord α) :
    (runAll steps r).bus.published = r.bus.published + steps.countP isPublish := by
  induction steps generalizing r with
  | nil => rfl
  | cons step steps ih =>
    have hRest : (runAll (step :: steps) r).bus.published = _ := ih (step.run r)
    rw [hRest, published_run, List.countP_cons]
    omega

theorem sound_runAll (steps : List (BusStep α)) (hNumbered : r.bus.WellNumbered)
    (hFresh : ∀ feed, r.bus.opened ≤ feed → r.returned feed = []) :
    (runAll steps r).bus.WellNumbered ∧
      (runAll steps r).returned (runAll steps r).bus.opened = [] := by
  induction steps generalizing r with
  | nil => exact ⟨hNumbered, hFresh _ (Nat.le_refl _)⟩
  | cons step steps ih =>
    exact ih (wellNumbered_run hNumbered step) (returned_run hNumbered hFresh step)

end BusStep

/-- The account that an open feed gives at one moment of a run.  The feed was opened with `initial`,
`published` has been published since, and the bus holds the newest `held` events. -/
structure FeedAccount (r : BusRecord α) (feed : Nat) (initial published : List (Event α))
    (held : Nat) : Prop where
  /-- The feed returns its initial events first, in their order. -/
  initial_first : (r.returned feed).take initial.length =
    (initial.take (r.returned feed).length).map .event
  /-- Every event was returned, or counted as missed, or is pending. -/
  conserved : published.length =
    (((r.returned feed).drop initial.length).filterMap Receipt.event?).length +
      (((r.returned feed).drop initial.length).map Receipt.missed).sum +
      (r.bus.pendingFor feed).length
  /-- Events are returned in the order of their publication, and none twice. -/
  ordered : (((r.returned feed).drop initial.length).filterMap Receipt.event? ++
    r.bus.pendingFor feed).Sublist published
  /-- What the feed returns next. -/
  next : ((ChangeBus.receive feed).run r.bus).1 =
    .due held r.bus.isClosed (initial.drop (r.returned feed).length) (r.bus.pendingFor feed)
  /-- Only a feed for which more is pending than is held has missed events.  If nothing is published
  before it is asked again, it goes on with the oldest event that is held. -/
  lagged : ∀ missed, ((ChangeBus.receive feed).run r.bus).1 = .lagged missed →
    initial.length ≤ (r.returned feed).length ∧ held < (r.bus.pendingFor feed).length ∧
      missed = (r.bus.pendingFor feed).length - held ∧
      ∀ steps : List (BusStep α), (∀ step ∈ steps, step.Spares feed) →
        ∃ oldest, r.bus.log[r.bus.published - held]? = some oldest ∧
          ((ChangeBus.receive feed).run
            (BusStep.runAll (.receive feed :: steps) r).bus).1 = .event oldest
  /-- A feed for which no more is pending than is held has missed nothing. -/
  not_lagged : (r.bus.pendingFor feed).length ≤ held →
    ((ChangeBus.receive feed).run r.bus).1.isLag = false
  /-- A feed is at its end only when the bus is gone and the feed has returned all there was. -/
  closed : ((ChangeBus.receive feed).run r.bus).1 = .closed →
    r.bus.isClosed = true ∧ r.bus.pendingFor feed = [] ∧
      initial.length ≤ (r.returned feed).length

namespace Receipt

variable {held missed : Nat} {isClosed : Bool} {left waiting : List (Event α)}

theorem eq_of_due_lagged (hDue : due held isClosed left waiting = .lagged missed) :
    left = [] ∧ held < waiting.length ∧ missed = waiting.length - held := by
  cases left with
  | cons e rest => cases hDue
  | nil =>
    rw [due_nil] at hDue
    split at hDue
    · rename_i hMore
      exact ⟨rfl, hMore, (Receipt.lagged.inj hDue).symm⟩
    · cases waiting with
      | cons e rest => cases hDue
      | nil => cases isClosed <;> cases hDue

theorem eq_of_due_closed (hDue : due held isClosed left waiting = .closed) :
    left = [] ∧ isClosed = true ∧ waiting = [] := by
  cases left with
  | cons e rest => cases hDue
  | nil =>
    rw [due_nil] at hDue
    split at hDue
    · cases hDue
    · cases waiting with
      | cons e rest => cases hDue
      | nil =>
        cases isClosed with
        | true => exact ⟨rfl, rfl, rfl⟩
        | false => cases hDue

end Receipt

namespace Accounted

variable {r : BusRecord α} {feed start : Nat} {initial : List (Event α)} {cursor : Cursor α}
  (h : Accounted r feed start initial cursor)

include h

/-- The initial events that are left are those after the receipts of the feed. -/
theorem left_eq : initial.drop (r.returned feed).length = cursor.initial := by
  obtain ⟨given, live, parts, hInitial, hReturned, hLive, -, -⟩ := h.account
  rw [hReturned, hInitial, List.length_append, List.length_map]
  cases hLeft : cursor.initial with
  | nil => simp
  | cons e rest =>
    rw [hLive (by simp [hLeft])]
    simp

/-- After a lag, and before anything else is published, the feed returns the oldest event held. -/
theorem next_after_lag {missed : Nat}
    (hLag : ((ChangeBus.receive feed).run r.bus).1 = .lagged missed) {steps : List (BusStep α)}
    (hSpares : ∀ step ∈ steps, step.Spares feed) :
    ∃ oldest, r.bus.log[r.bus.published - r.bus.held]? = some oldest ∧
      ((ChangeBus.receive feed).run
        (BusStep.runAll (.receive feed :: steps) r).bus).1 = .event oldest := by
  have hCursor := ChangeBus.cursor?_receive_self h.isOpen
  rw [ChangeBus.receive_eq h.isOpen] at hLag
  obtain ⟨hNext, hHeld⟩ := ChangeBus.advance_after_lag hLag
  obtain ⟨cursor', hAfter⟩ := h.receive
  obtain ⟨hLog, hFeed⟩ := hAfter.spared_all hSpares
  have hCapacity := BusStep.capacity_runAll (.receive feed :: steps) r
  -- The feed is at the oldest event held, and the log is as it was.
  have hSame : (BusStep.runAll (.receive feed :: steps) r).bus.log = r.bus.log := by
    refine hLog.trans ?_
    simp only [BusStep.run, h.isOpen]
    exact ChangeBus.log_receive r.bus feed
  have hOpen : (BusStep.runAll (.receive feed :: steps) r).bus.cursor? feed =
      some ⟨[], r.bus.published - r.bus.held⟩ := by
    refine hFeed.trans ?_
    simp only [BusStep.run, h.isOpen]
    rw [hCursor, hNext]
  generalize BusStep.runAll (.receive feed :: steps) r = now at hSame hOpen hCapacity ⊢
  have hPublished : now.bus.published = r.bus.published := by
    rw [ChangeBus.published, ChangeBus.published, hSame]
  have hHolds : now.bus.held = r.bus.held := by rw [ChangeBus.held, ChangeBus.held, hCapacity]
  have hPos := r.bus.held_pos
  have hLt : r.bus.published - r.bus.held < r.bus.log.size := by
    rw [ChangeBus.published] at hHeld ⊢
    omega
  refine ⟨r.bus.log[r.bus.published - r.bus.held], Array.getElem?_eq_getElem hLt, ?_⟩
  have hFew : ¬ now.bus.held <
      (now.bus.publishedSince (r.bus.published - r.bus.held)).length := by
    rw [ChangeBus.publishedSince_length]
    omega
  have hHead : (now.bus.publishedSince (r.bus.published - r.bus.held)).head? =
      some r.bus.log[r.bus.published - r.bus.held] := by
    rw [ChangeBus.publishedSince, List.head?_drop, Array.getElem?_toList, hSame]
    exact Array.getElem?_eq_getElem hLt
  rw [ChangeBus.receive_eq hOpen, ChangeBus.advance_eq_due, Receipt.due_nil, if_neg hFew, hHead]
  rfl

/-- What an open feed can be held to. -/
theorem feedAccount : FeedAccount r feed initial (r.bus.publishedSince start) r.bus.held := by
  have hLeft := h.left_eq
  have hPending := ChangeBus.pendingFor_eq h.isOpen
  have hNext : ((ChangeBus.receive feed).run r.bus).1 =
      .due r.bus.held r.bus.isClosed (initial.drop (r.returned feed).length)
        (r.bus.pendingFor feed) := by
    rw [ChangeBus.receive_eq h.isOpen, hLeft, hPending]
    exact ChangeBus.advance_eq_due r.bus cursor
  obtain ⟨given, live, parts, hInitial, hReturned, hLive, hPasses, hSince⟩ := h.account
  have hDrop : (r.returned feed).drop initial.length = live := by
    rw [hReturned, hInitial, List.length_append]
    cases hCursor : cursor.initial with
    | nil => simp
    | cons e rest =>
      rw [hLive (by simp [hCursor])]
      simp
  constructor
  case initial_first =>
    rw [hReturned, hInitial]
    cases hCursor : cursor.initial with
    | nil =>
      have hEnough : given.length ≤ (given.map Receipt.event ++ live).length := by simp
      rw [List.append_nil, List.take_of_length_le hEnough]
      exact List.take_left' (List.length_map _)
    | cons e rest =>
      rw [hLive (by simp [hCursor]), List.append_nil, List.length_map, List.take_left]
      exact List.take_of_length_le (by simp)
  case conserved =>
    rw [hDrop, hSince, hPending, List.length_append, Receipt.length_of_passes hPasses]
  case ordered =>
    rw [hDrop, hSince, hPending]
    exact (Receipt.sublist_of_passes hPasses).append (List.Sublist.refl _)
  case next => exact hNext
  case lagged =>
    intro missed hLag
    obtain ⟨hNone, hMore, hMissed⟩ := Receipt.eq_of_due_lagged (hNext.symm.trans hLag)
    exact ⟨List.drop_eq_nil_iff.1 hNone, hMore, hMissed, fun steps hSpares =>
      h.next_after_lag hLag hSpares⟩
  case not_lagged =>
    intro hFew
    cases hReceipt : ((ChangeBus.receive feed).run r.bus).1 with
    | lagged missed =>
      obtain ⟨-, hMore, -⟩ := Receipt.eq_of_due_lagged (hNext.symm.trans hReceipt)
      omega
    | event _ | pending | closed => rfl
  case closed =>
    intro hClosed
    obtain ⟨hNone, hGone, hEmpty⟩ := Receipt.eq_of_due_closed (hNext.symm.trans hClosed)
    exact ⟨hGone, hEmpty, List.drop_eq_nil_iff.1 hNone⟩

end Accounted

/-- Let anything happen on a bus of any capacity, then let a feed be opened, and let anything happen
again.  At this moment the number of events published is the number of all publications, and unless
the feed has been dropped it accounts for every event that has been published since it was opened.
The bus holds as many events as its capacity, rounded up to a power of two. -/
theorem feed_accounts_for_every_event (capacity : Nat) (before after : List (BusStep α))
    (initial : List (Event α)) :
    let opening := BusStep.runAll before (.fresh capacity)
    let feed := opening.bus.opened
    let now := BusStep.runAll (.subscribe initial :: after) opening
    let published := now.bus.publishedSince opening.bus.published
    now.bus.published = before.countP BusStep.isPublish + after.countP BusStep.isPublish ∧
    published.length = after.countP BusStep.isPublish ∧
    (.drop feed ∉ after →
      FeedAccount now feed initial published (max capacity 1).nextPowerOfTwo) := by
  intro opening feed now published
  have hBefore : opening.bus.published = before.countP BusStep.isPublish := by
    have hCount := BusStep.published_runAll before (BusRecord.fresh capacity)
    exact hCount.trans (Nat.zero_add _)
  have hNow : now.bus.published = opening.bus.published + after.countP BusStep.isPublish :=
    BusStep.published_runAll after ((BusStep.subscribe initial).run opening)
  refine ⟨hBefore ▸ hNow, ?_, fun hKept => ?_⟩
  · rw [ChangeBus.publishedSince_length, hNow]
    omega
  · obtain ⟨hNumbered, hFresh⟩ := BusStep.sound_runAll before (r := BusRecord.fresh capacity)
      (ChangeBus.wellNumbered_ofCapacity capacity) fun _ _ => rfl
    obtain ⟨cursor, hAccounted⟩ := (Accounted.opened hNumbered hFresh initial).runAll hKept
    have hCapacity : now.bus.capacity = max capacity 1 :=
      (BusStep.capacity_runAll (.subscribe initial :: after) opening).trans
        (BusStep.capacity_runAll before (BusRecord.fresh capacity))
    rw [← hCapacity]
    exact hAccounted.feedAccount

/-- A bus that holds two events, and a feed that begins with one initial event and then falls one
event behind: it misses that event, and goes on with the two that are held. -/
theorem feed_accounts_for_every_event_overrun :
    let after : List (BusStep Nat) :=
      [.publish (.added 1), .publish (.added 2), .receive 0, .publish (.added 3), .close]
    let opening := BusStep.runAll [.publish (.added 0)] (.fresh 2)
    let now := BusStep.runAll (.subscribe [.added 9] :: after) opening
    .drop opening.bus.opened ∉ after ∧
      FeedAccount now 0 [.added 9] [.added 1, .added 2, .added 3] 2 ∧
      ((ChangeBus.receive 0).run now.bus).1 = .lagged 1 := by
  intro after opening now
  have hKept : .drop opening.bus.opened ∉ after := by simp [after]
  have hHeld : (max 2 1).nextPowerOfTwo = 2 := by decide +kernel
  have hPublished : now.bus.publishedSince opening.bus.published =
      [.added 1, .added 2, .added 3] := rfl
  obtain ⟨-, -, hAccount⟩ :=
    feed_accounts_for_every_event 2 [.publish (.added 0)] after [.added 9]
  have hFeed := hAccount hKept
  rw [hHeld, hPublished] at hFeed
  exact ⟨hKept, hFeed, hFeed.next⟩

end Tenancy
