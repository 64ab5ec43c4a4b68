import Tenancy.Feed.Bus

/-!
# Following a feed

A feed that has not fallen behind has received its initial events and then, in order, what was
published since it was opened, as far as it has come.  `Follows` says this of a feed and the events
that it has received; it is kept by all that happens on a bus.

* `ChangeBus.follows_subscribe`: a new feed has received nothing.
* `ChangeBus.Follows.receive_self`: what the feed takes next is the next event of its sequence,
  unless it has fallen behind.
* `ChangeBus.Follows.eq_of_pending`: if nothing is pending, it has received the whole sequence.
* `ChangeBus.Awaits.receive`: a feed that has not fallen behind gives one event after the other.
* `ChangeBus.Carries`: what is on a bus; `ChangeBus.carries_of_receive`: feeds deliver nothing else.
-/

namespace Tenancy

variable {α : Type}

def Receipt.event? : Receipt α → Option (Event α)
  | .event e => some e
  | _ => none

def Receipt.isLag : Receipt α → Bool
  | .lagged _ => true
  | _ => false

def Receipt.isPending : Receipt α → Bool
  | .pending => true
  | _ => false

namespace ChangeBus

variable {bus : ChangeBus α} {feed other start : Nat} {initial received : List (Event α)}

/-- How far the feed of a number has come, if it is open. -/
def cursor? (bus : ChangeBus α) (feed : Nat) : Option (Cursor α) := bus.feeds.lookup feed

/-- The numbers of feeds are those that were given out. -/
def WellNumbered (bus : ChangeBus α) : Prop := ∀ f ∈ bus.feeds, f.1 < bus.opened

/-- The events that were published after the first `start`. -/
def publishedSince (bus : ChangeBus α) (start : Nat) : List (Event α) := bus.log.toList.drop start

/-- The feed, opened with `initial` when `start` events had been published, has received `received`
of its sequence and goes on with the rest. -/
structure Follows (bus : ChangeBus α) (feed : Nat) (initial : List (Event α)) (start : Nat)
    (received : List (Event α)) (cursor : Cursor α) : Prop where
  isOpen : bus.cursor? feed = some cursor
  started : start ≤ cursor.position
  position_le : cursor.position ≤ bus.published
  sequence : received ++ (cursor.initial ++ bus.publishedSince cursor.position) =
    initial ++ bus.publishedSince start

inductive Advance (bus : ChangeBus α) (cursor : Cursor α) : Receipt α × Cursor α → Prop
  | initial (e : Event α) (rest : List (Event α)) (hInitial : cursor.initial = e :: rest) :
      Advance bus cursor (.event e, { cursor with initial := rest })
  | lagged (missed : Nat) (hInitial : cursor.initial = [])
      (hBehind : cursor.position < bus.published - bus.held)
      (hMissed : missed = bus.published - bus.held - cursor.position) :
      Advance bus cursor
        (.lagged missed, { cursor with position := bus.published - bus.held })
  | live (e : Event α) (hInitial : cursor.initial = [])
      (hNext : bus.log.toList[cursor.position]? = some e) :
      Advance bus cursor (.event e, { cursor with position := cursor.position + 1 })
  | waiting (receipt : Receipt α) (hEvent : receipt.event? = none)
      (hLag : receipt.isLag = false) (hInitial : cursor.initial = [])
      (hNext : bus.log.toList[cursor.position]? = none) :
      Advance bus cursor (receipt, cursor)

/-! ## What happens on a bus -/

theorem advance_cases (bus : ChangeBus α) (cursor : Cursor α) :
    bus.Advance cursor (bus.advance cursor) := by
  rw [advance]
  split
  · rename_i e rest hInitial
    exact .initial e rest hInitial
  · rename_i hInitial
    dsimp only
    split
    · rename_i hBehind
      exact .lagged _ hInitial hBehind rfl
    · cases hNext : bus.log[cursor.position]? with
      | some e => exact .live e hInitial (by rwa [Array.getElem?_toList])
      | none =>
        have hNone : bus.log.toList[cursor.position]? = none := by rwa [Array.getElem?_toList]
        cases bus.isClosed
        · exact .waiting .pending rfl rfl hInitial hNone
        · exact .waiting .closed rfl rfl hInitial hNone

theorem publishedSince_publish (e : Event α) (hStart : start ≤ bus.published) :
    (bus.publish e).publishedSince start = bus.publishedSince start ++ [e] := by
  simp only [publishedSince, publish, Array.toList_push]
  exact List.drop_append_of_le_length hStart

theorem lookup_cons_eq_ite {β : Type} (f : Nat × β) (feeds : List (Nat × β)) (feed : Nat) :
    (f :: feeds).lookup feed = if feed = f.1 then some f.2 else feeds.lookup feed := by
  obtain ⟨number, value⟩ := f
  by_cases hFeed : feed = number
  · simp [hFeed]
  · have hBeq : (feed == number) = false := beq_false_of_ne hFeed
    simp [List.lookup_cons, hFeed, hBeq]

theorem lookup_map (cursor : Cursor α) (feeds : List (Nat × Cursor α)) (feed other : Nat) :
    (feeds.map fun f => if f.1 = other then (other, cursor) else f).lookup feed =
      if feed = other then (feeds.lookup feed).map fun _ => cursor else feeds.lookup feed := by
  induction feeds with
  | nil => simp
  | cons f feeds ih =>
    rw [List.map_cons, lookup_cons_eq_ite, lookup_cons_eq_ite, ih]
    by_cases hFirst : f.1 = other <;> by_cases hFeed : feed = other <;> grind

theorem lookup_filter_of_ne (hNe : other ≠ feed) (feeds : List (Nat × Cursor α)) :
    (feeds.filter fun f => f.1 ≠ other).lookup feed = feeds.lookup feed := by
  induction feeds with
  | nil => rfl
  | cons f feeds ih =>
    rw [List.filter_cons, lookup_cons_eq_ite]
    split
    · rw [lookup_cons_eq_ite, ih]
    · rename_i hOther
      have hFeed : feed ≠ f.1 := by
        rintro rfl
        simp [hNe.symm] at hOther
      rw [if_neg hFeed, ih]

theorem lookup_append_single (feeds : List (Nat × Cursor α)) (f : Nat × Cursor α) (feed : Nat) :
    (feeds ++ [f]).lookup feed =
      (feeds.lookup feed).or (if feed = f.1 then some f.2 else none) := by
  rw [List.lookup_append, lookup_cons_eq_ite]
  rfl

theorem lookup_eq_none (hNumbered : bus.WellNumbered) (hFeed : bus.opened ≤ feed) :
    bus.cursor? feed = none := by
  rw [cursor?, List.lookup_eq_none_iff]
  intro f hMem
  have hLt := hNumbered f hMem
  exact bne_iff_ne.2 (by omega)

theorem receive_eq {cursor : Cursor α} (hOpen : bus.cursor? feed = some cursor) :
    (receive feed).run bus = ((bus.advance cursor).1,
      { bus with
        feeds := bus.feeds.map fun f =>
          if f.1 = feed then (feed, (bus.advance cursor).2) else f }) := by
  simp only [receive, StateT.run]
  rw [cursor?] at hOpen
  rw [hOpen]

theorem receive_eq_of_closed (hClosed : bus.cursor? feed = none) :
    (receive feed).run bus = (.closed, bus) := by
  simp only [receive, StateT.run]
  rw [cursor?] at hClosed
  rw [hClosed]

theorem cursor?_receive_self {cursor : Cursor α} (hOpen : bus.cursor? feed = some cursor) :
    ((receive feed).run bus).2.cursor? feed = some (bus.advance cursor).2 := by
  rw [receive_eq hOpen, cursor?, lookup_map, if_pos rfl]
  rw [cursor?] at hOpen
  rw [hOpen]
  rfl

theorem cursor?_receive_of_ne (hNe : other ≠ feed) :
    ((receive other).run bus).2.cursor? feed = bus.cursor? feed := by
  cases hOpen : bus.cursor? other with
  | none => rw [receive_eq_of_closed hOpen]
  | some cursor => rw [receive_eq hOpen, cursor?, lookup_map, if_neg hNe.symm, cursor?]

theorem log_receive (bus : ChangeBus α) (feed : Nat) :
    ((receive feed).run bus).2.log = bus.log := by
  cases hOpen : bus.cursor? feed with
  | none => rw [receive_eq_of_closed hOpen]
  | some cursor => rw [receive_eq hOpen]

theorem wellNumbered_ofCapacity (capacity : Nat) :
    (ofCapacity capacity : ChangeBus α).WellNumbered := fun _ hMem => by cases hMem

theorem WellNumbered.subscribe (hNumbered : bus.WellNumbered) (initial : List (Event α)) :
    ((ChangeBus.subscribe initial).run bus).2.WellNumbered := by
  intro f hMem
  rcases List.mem_append.1 hMem with hOld | hNew
  · exact Nat.lt_succ_of_lt (hNumbered f hOld)
  · obtain rfl := List.mem_singleton.1 hNew
    exact Nat.lt_succ_self _

theorem WellNumbered.receive (hNumbered : bus.WellNumbered) (feed : Nat) :
    ((ChangeBus.receive feed).run bus).2.WellNumbered := by
  cases hOpen : bus.cursor? feed with
  | none =>
    rw [receive_eq_of_closed hOpen]
    exact hNumbered
  | some cursor =>
    rw [receive_eq hOpen]
    intro f hMem
    obtain ⟨old, hOld, rfl⟩ := List.mem_map.1 hMem
    have hLt := hNumbered old hOld
    split
    · rename_i hEq
      exact hEq ▸ hLt
    · exact hLt

theorem WellNumbered.unsubscribe (hNumbered : bus.WellNumbered) (feed : Nat) :
    (bus.unsubscribe feed).WellNumbered :=
  fun f hMem => hNumbered f (List.mem_filter.1 hMem).1

/-! ## What is on a bus -/

/-- The event was published, or it is one of the initial events that a feed has still to deliver. -/
def Carries (bus : ChangeBus α) (e : Event α) : Prop :=
  e ∈ bus.log.toList ∨ ∃ f ∈ bus.feeds, e ∈ f.2.initial

theorem Carries.of_publish {e published : Event α} (h : (bus.publish published).Carries e) :
    e = published ∨ bus.Carries e := by
  rcases h with hLog | hInitial
  · rw [publish, Array.toList_push, List.mem_append, List.mem_singleton] at hLog
    exact hLog.symm.imp_right .inl
  · exact .inr (.inr hInitial)

theorem Carries.of_subscribe {e : Event α} (h : ((subscribe initial).run bus).2.Carries e) :
    e ∈ initial ∨ bus.Carries e := by
  rcases h with hLog | ⟨f, hMem, hInitial⟩
  · exact .inr (.inl hLog)
  · rcases List.mem_append.1 hMem with hOld | hNew
    · exact .inr (.inr ⟨f, hOld, hInitial⟩)
    · obtain rfl := List.mem_singleton.1 hNew
      exact .inl hInitial

theorem Carries.of_unsubscribe {e : Event α} (h : (bus.unsubscribe feed).Carries e) :
    bus.Carries e := by
  rcases h with hLog | ⟨f, hMem, hInitial⟩
  · exact .inl hLog
  · exact .inr ⟨f, (List.mem_filter.1 hMem).1, hInitial⟩

theorem cursor_mem {cursor : Cursor α} (hOpen : bus.cursor? feed = some cursor) :
    (feed, cursor) ∈ bus.feeds := by
  obtain ⟨front, back, hFeeds, -⟩ := List.lookup_eq_some_iff.1 hOpen
  rw [hFeeds]
  exact List.mem_append_right _ List.mem_cons_self

/-- What a feed delivers is on the bus. -/
theorem carries_of_receive {e : Event α}
    (hReceived : ((receive feed).run bus).1.event? = some e) : bus.Carries e := by
  cases hOpen : bus.cursor? feed with
  | none =>
    rw [receive_eq_of_closed hOpen] at hReceived
    cases hReceived
  | some cursor =>
    have hCases := advance_cases bus cursor
    rw [receive_eq hOpen] at hReceived
    generalize bus.advance cursor = next at hCases hReceived
    cases hCases with
    | initial e' rest hInitial =>
      obtain rfl := Option.some.inj hReceived
      exact .inr ⟨_, cursor_mem hOpen, hInitial ▸ List.mem_cons_self⟩
    | lagged => cases hReceived
    | live e' _ hNext =>
      obtain rfl := Option.some.inj hReceived
      exact .inl (List.mem_of_getElem? hNext)
    | waiting _ hNone =>
      rw [hNone] at hReceived
      cases hReceived

theorem initial_advance_subset (bus : ChangeBus α) (cursor : Cursor α) :
    (bus.advance cursor).2.initial ⊆ cursor.initial := by
  have hCases := advance_cases bus cursor
  generalize bus.advance cursor = next at hCases
  cases hCases with
  | initial e rest hInitial => exact hInitial ▸ List.subset_cons_self e rest
  | lagged | live | waiting => exact List.Subset.refl _

theorem Carries.of_receive {e : Event α} (h : ((ChangeBus.receive feed).run bus).2.Carries e) :
    bus.Carries e := by
  cases hOpen : bus.cursor? feed with
  | none => rwa [receive_eq_of_closed hOpen] at h
  | some cursor =>
    rw [receive_eq hOpen] at h
    rcases h with hLog | ⟨f, hMem, hInitial⟩
    · exact .inl hLog
    · obtain ⟨old, hOld, rfl⟩ := List.mem_map.1 hMem
      split at hInitial
      · exact .inr ⟨_, cursor_mem hOpen, initial_advance_subset bus cursor hInitial⟩
      · exact .inr ⟨old, hOld, hInitial⟩

/-! ## Following -/

theorem follows_subscribe (hNumbered : bus.WellNumbered) (initial : List (Event α)) :
    ((subscribe initial).run bus).2.Follows bus.opened initial bus.published []
      ⟨initial, bus.published⟩ where
  isOpen := by
    have hNew := lookup_eq_none hNumbered (Nat.le_refl bus.opened)
    rw [cursor?] at hNew
    refine (lookup_append_single bus.feeds _ bus.opened).trans ?_
    rw [hNew, if_pos rfl]
    rfl
  started := Nat.le_refl _
  position_le := Nat.le_refl _
  sequence := rfl

section

variable {cursor : Cursor α} (h : bus.Follows feed initial start received cursor)

include h

theorem Follows.publish (e : Event α) :
    (bus.publish e).Follows feed initial start received cursor where
  isOpen := h.isOpen
  started := h.started
  position_le := by
    have hPosition := h.position_le
    simp only [published, ChangeBus.publish, Array.size_push] at hPosition ⊢
    omega
  sequence := by
    have hStart := Nat.le_trans h.started h.position_le
    rw [publishedSince_publish e h.position_le, publishedSince_publish e hStart,
      ← List.append_assoc cursor.initial, ← List.append_assoc, h.sequence, List.append_assoc]

/-- Nothing that leaves the log and the feed alone makes a difference. -/
theorem Follows.congr {bus' : ChangeBus α} (hLog : bus'.log = bus.log)
    (hFeed : bus'.cursor? feed = bus.cursor? feed) :
    bus'.Follows feed initial start received cursor where
  isOpen := hFeed.trans h.isOpen
  started := h.started
  position_le := by
    have hPosition := h.position_le
    rwa [published, ← hLog] at hPosition
  sequence := by
    have hSequence := h.sequence
    simp only [publishedSince, ← hLog] at hSequence
    exact hSequence

theorem Follows.subscribe (others : List (Event α)) :
    ((ChangeBus.subscribe others).run bus).2.Follows feed initial start received cursor := by
  refine h.congr rfl ?_
  have hOpen := h.isOpen
  rw [cursor?] at hOpen
  refine (lookup_append_single bus.feeds _ feed).trans ?_
  rw [cursor?, hOpen]
  rfl

theorem Follows.receive_other (hNe : other ≠ feed) :
    ((ChangeBus.receive other).run bus).2.Follows feed initial start received cursor :=
  h.congr (log_receive bus other) (cursor?_receive_of_ne hNe)

theorem Follows.unsubscribe_other (hNe : other ≠ feed) :
    (bus.unsubscribe other).Follows feed initial start received cursor :=
  h.congr rfl (lookup_filter_of_ne hNe bus.feeds)

theorem Follows.advance {receipt : Receipt α} {cursor' : Cursor α}
    (hAdvance : bus.Advance cursor (receipt, cursor')) (hLag : receipt.isLag = false) :
    start ≤ cursor'.position ∧ cursor'.position ≤ bus.published ∧
      received ++ receipt.event?.toList ++
        (cursor'.initial ++ bus.publishedSince cursor'.position) =
      initial ++ bus.publishedSince start := by
  have hStarted := h.started
  have hPosition := h.position_le
  have hSequence := h.sequence
  cases hAdvance with
  | initial e rest hInitial =>
    refine ⟨hStarted, hPosition, ?_⟩
    rw [← hSequence, hInitial]
    simp [Receipt.event?]
  | lagged => cases hLag
  | live e hInitial hNext =>
    obtain ⟨hLt, hGet⟩ := List.getElem?_eq_some_iff.1 hNext
    refine ⟨Nat.le_succ_of_le hStarted, by simpa [published] using Nat.succ_le_of_lt hLt, ?_⟩
    rw [← hSequence, hInitial, publishedSince, publishedSince, List.drop_eq_getElem_cons hLt, hGet]
    simp [Receipt.event?]
  | waiting _ hEvent =>
    refine ⟨hStarted, hPosition, ?_⟩
    rw [hEvent, Option.toList_none, List.append_nil, hSequence]

/-- What the feed takes is the next event of its sequence, unless it has fallen behind. -/
theorem Follows.receive_self (hLag : ((ChangeBus.receive feed).run bus).1.isLag = false) :
    ∃ cursor', ((ChangeBus.receive feed).run bus).2.Follows feed initial start
      (received ++ ((ChangeBus.receive feed).run bus).1.event?.toList) cursor' := by
  have hOpen := cursor?_receive_self h.isOpen
  rw [receive_eq h.isOpen] at hLag hOpen ⊢
  obtain ⟨hStarted, hPosition, hSequence⟩ := h.advance (advance_cases bus cursor) hLag
  exact ⟨(bus.advance cursor).2, hOpen, hStarted, hPosition, hSequence⟩

/-- A feed for which nothing is pending has received its whole sequence. -/
theorem Follows.eq_of_pending
    (hPending : ((ChangeBus.receive feed).run bus).1.isPending = true) :
    received = initial ++ bus.publishedSince start := by
  have hSequence := h.sequence
  have hCases := advance_cases bus cursor
  rw [receive_eq h.isOpen] at hPending
  generalize bus.advance cursor = next at hCases hPending
  cases hCases with
  | initial => cases hPending
  | lagged => cases hPending
  | live => cases hPending
  | waiting receipt _ _ hInitial hNext =>
    rw [hInitial, publishedSince, List.drop_eq_nil_of_le (List.getElem?_eq_none_iff.1 hNext),
      List.append_nil, List.append_nil] at hSequence
    exact hSequence

/-- A feed that falls behind is told how many events it has missed: those of its sequence that it
has not received, but for those that the bus still holds. -/
theorem Follows.missed {missed : Nat}
    (hLag : ((ChangeBus.receive feed).run bus).1 = .lagged missed) :
    0 < missed ∧
      (initial ++ bus.publishedSince start).length = received.length + missed + bus.held := by
  have hLength := congrArg List.length h.sequence
  have hCases := advance_cases bus cursor
  rw [receive_eq h.isOpen] at hLag
  generalize bus.advance cursor = next at hCases hLag
  cases hCases with
  | initial => cases hLag
  | lagged _ hInitial hBehind hMissed =>
    obtain rfl := Receipt.lagged.inj hLag
    simp only [publishedSince, published, hInitial, List.length_append, List.length_nil,
      List.length_drop, Array.length_toList] at hLength hBehind hMissed ⊢
    omega
  | live => cases hLag
  | waiting _ _ hNone =>
    obtain rfl : _ = Receipt.lagged missed := hLag
    cases hNone

end

/-! ## Feeds that have not fallen behind -/

section

variable {pending : Nat} {cursor : Cursor α}

/-- The bus holds all the `pending` events that a feed which has come so far has not given yet. -/
structure Holds (bus : ChangeBus α) (cursor : Cursor α) (pending : Nat) : Prop where
  position_le : cursor.position ≤ bus.published
  held : bus.published ≤ cursor.position + bus.held
  pending_eq : pending = cursor.initial.length + (bus.published - cursor.position)

/-- The bus is there, and it holds all the `pending` events that the feed has not given yet. -/
structure Awaits (bus : ChangeBus α) (feed pending : Nat) : Prop where
  notClosed : bus.isClosed = false
  cursor : ∃ cursor, bus.cursor? feed = some cursor ∧ bus.Holds cursor pending

/-- A feed gives the next event that is held, and if there is none, there is nothing yet. -/
theorem Holds.advance (h : bus.Holds cursor pending) (hOpen : bus.isClosed = false) :
    (∃ e cursor' n, bus.advance cursor = (.event e, cursor') ∧ pending = n + 1 ∧
      bus.Holds cursor' n) ∨
    pending = 0 ∧ bus.advance cursor = (.pending, cursor) := by
  obtain ⟨hPosition, hHeld, hPending⟩ := h
  rw [ChangeBus.advance]
  cases hInitial : cursor.initial with
  | cons e rest =>
    rw [hInitial, List.length_cons, Nat.add_right_comm] at hPending
    exact .inl ⟨e, _, _, rfl, hPending, hPosition, hHeld, rfl⟩
  | nil =>
    rw [hInitial, List.length_nil, Nat.zero_add] at hPending
    have hNotBehind : ¬ cursor.position < bus.log.size - bus.held := by
      rw [published] at hHeld
      omega
    simp only [hNotBehind, if_false]
    by_cases hMore : cursor.position < bus.published
    · rw [Array.getElem?_eq_getElem hMore]
      refine .inl ⟨_, _, bus.published - (cursor.position + 1), rfl, by omega, hMore, ?_, ?_⟩
      · dsimp only
        omega
      · exact (Nat.zero_add _).symm
    · rw [Array.getElem?_eq_none (Nat.le_of_not_lt hMore), hOpen]
      exact .inr ⟨by omega, rfl⟩

namespace Awaits

theorem receive (h : bus.Awaits feed pending) :
    (∃ e n, pending = n + 1 ∧ ((ChangeBus.receive feed).run bus).1 = .event e ∧
      ((ChangeBus.receive feed).run bus).2.Awaits feed n) ∨
    pending = 0 ∧ ((ChangeBus.receive feed).run bus).1 = .pending := by
  obtain ⟨cursor, hCursor, hHolds⟩ := h.cursor
  have hNext := cursor?_receive_self hCursor
  rw [receive_eq hCursor] at hNext ⊢
  rcases hHolds.advance h.notClosed with ⟨e, cursor', n, hAdvance, hMore, hRest⟩ | ⟨hNone, hAdvance⟩
  · rw [hAdvance] at hNext ⊢
    exact .inl ⟨e, n, hMore, rfl, h.notClosed, cursor', hNext, hRest.1, hRest.2, hRest.3⟩
  · rw [hAdvance]
    exact .inr ⟨hNone, rfl⟩

/-- A feed for which there is nothing yet. -/
theorem of_pending (hFollows : bus.Follows feed initial start received cursor)
    (hPending : ((ChangeBus.receive feed).run bus).1 = .pending) : bus.Awaits feed 0 := by
  rw [receive_eq hFollows.isOpen, ChangeBus.advance] at hPending
  cases hInitial : cursor.initial with
  | cons e rest =>
    rw [hInitial] at hPending
    cases hPending
  | nil =>
    rw [hInitial] at hPending
    dsimp only at hPending
    split at hPending
    · cases hPending
    · cases hNext : bus.log[cursor.position]? with
      | some e =>
        rw [hNext] at hPending
        cases hPending
      | none =>
        rw [hNext] at hPending
        have hPosition := hFollows.position_le
        have hEnd := Array.getElem?_eq_none_iff.1 hNext
        cases hClosed : bus.isClosed with
        | true =>
          rw [hClosed] at hPending
          cases hPending
        | false =>
          refine ⟨hClosed, cursor, hFollows.isOpen, hPosition, Nat.le_add_right_of_le hEnd, ?_⟩
          rw [hInitial, List.length_nil, Nat.zero_add]
          exact (Nat.sub_eq_zero_of_le hEnd).symm

theorem publish (h : bus.Awaits feed pending) (e : Event α) (hHeld : pending < bus.held) :
    (bus.publish e).Awaits feed (pending + 1) := by
  obtain ⟨cursor, hCursor, hPosition, -, hPending⟩ := h.cursor
  have hMore : (bus.publish e).published = bus.published + 1 := Array.size_push ..
  refine ⟨h.notClosed, cursor, hCursor, ?_, ?_, ?_⟩
  · omega
  · have hSame : (bus.publish e).held = bus.held := rfl
    omega
  · omega

end Awaits

end

theorem held_pos (bus : ChangeBus α) : 0 < bus.held :=
  Nat.pos_of_isPowerOfTwo (Nat.isPowerOfTwo_nextPowerOfTwo _)

end ChangeBus

end Tenancy
