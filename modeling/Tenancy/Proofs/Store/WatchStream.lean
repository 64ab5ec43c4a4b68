import Tenancy.Proofs.Feed.Relay
import Tenancy.Proofs.Store.ChangeFeed
import Tenancy.Proofs.Store.Page

/-!
# What a watch delivers

A watch of a store relays the events of one feed of the container, each with its entry read.  Its
feed goes through one sequence: the entries at the opening, then what is published.  The consumer
receives a beginning of it, and learns of a gap, if there is one, by the last event that there is.

A watch is first following its feed; it may then be expiring, with the news of the gap in hand; and
in the end it is over (`WatchPhase`).  Until then, what has been received and what the relay holds
are together what the feed has given.

* `WatchPhase.relay`, `WatchPhase.consume`, `WatchPhase.elsewhere`: the phases under all that can
  happen.
* `watch_has_no_silent_gap`: what the consumer receives.
-/

namespace Tenancy

variable {σ α : Type}

/-! ## Events as they are shown -/

namespace BlobStore

variable {m : Type → Type}

/-- An event of a container as a watch shows it: with its entry read, or as an error event if the
entry cannot be read. -/
def shown (s : BlobStore m α) (e : Event Entry) : Event (Resource α) :=
  match e.mapM s.read with
  | .ok e => e
  | .error err => .error err.toStatus

/-- The last event of a watch that has missed some. -/
def expired (s : BlobStore m α) (missed : Nat) : Event (Resource α) :=
  .error (.expired ("watch of " ++ s.collection.text ++ " fell behind by " ++ toString missed ++
    " events"))

theorem taken_event (s : BlobStore m α) (e : Event Entry) :
    s.taken (.event e) = .event (s.shown e) := by
  rw [taken, shown]
  cases e.mapM s.read <;> rfl

variable {s : BlobStore m α} {receipt : Receipt Entry} {e : Event (Resource α)}

theorem taken_eq_event (hTaken : s.taken receipt = .event e) :
    ∃ next, receipt = .event next ∧ e = s.shown next := by
  cases receipt with
  | event next => exact ⟨next, rfl, Taken.event.inj (hTaken.symm.trans (s.taken_event next))⟩
  | lagged | pending | closed => cases hTaken

theorem taken_eq_last (hTaken : s.taken receipt = .last e) :
    ∃ missed, receipt = .lagged missed ∧ e = s.expired missed := by
  cases receipt with
  | lagged missed => exact ⟨missed, rfl, (Taken.last.inj hTaken).symm⟩
  | event next => exact absurd ((s.taken_event next).symm.trans hTaken) nofun
  | pending | closed => cases hTaken

theorem taken_eq_pending (hTaken : s.taken receipt = .pending) : receipt = .pending := by
  cases receipt with
  | pending => rfl
  | event next => exact absurd ((s.taken_event next).symm.trans hTaken) nofun
  | lagged | closed => cases hTaken

def feedSource (s : BlobStore (StateM σ) α) (p : Part σ MemoryContainer) (feed : Nat) :
    Source (StateM σ) (Resource α) :=
  s.source (MemoryContainer.subscription p.cell feed)

end BlobStore

/-! ## What happens to a watch -/

inductive WatchTurn where
  | watch (move : WatchMove)
  | container (step : ContainerStep)

namespace WatchTurn

def Spares (feed : Nat) : WatchTurn → Prop
  | .watch _ => True
  | .container step => Turn.Spares feed (.other step)

def run (p : Part σ MemoryContainer) (now : Watching σ α × σ) : WatchTurn → Watching σ α × σ
  | .watch move => (now.1.move move).run now.2
  | .container step => (now.1, p.write (step.run (p.read now.2)) now.2)

def runAll (p : Part σ MemoryContainer) (turns : List WatchTurn) (now : Watching σ α × σ) :
    Watching σ α × σ :=
  turns.foldl (run p) now

theorem runAll_append (p : Part σ MemoryContainer) (first second : List WatchTurn)
    (now : Watching σ α × σ) :
    runAll p (first ++ second) now = runAll p second (runAll p first now) :=
  List.foldl_append

end WatchTurn

/-! ## Phases of a watch -/

section

variable (s : BlobStore (StateM σ) α) (p : Part σ MemoryContainer) (feed : Nat)
  (initial : List (Event Entry)) (start : Nat)

/-- The sequence of the feed as far as it has come about: the initial events, then what has been
published since the opening. -/
def feedSequence (st : σ) : List (Event Entry) := initial ++ (p.read st).bus.publishedSince start

/-- The feed has taken `taken`, and of what comes next the first `missed` events are not held any
more. -/
structure FellBehind (taken : List (Event Entry)) (missed : Nat) (st : σ) : Prop where
  taken_prefix : taken <+: feedSequence p initial start st
  missed_pos : 0 < missed
  length_eq : (feedSequence p initial start st).length =
    taken.length + missed + (p.read st).bus.held

/-- How far a watch has come with its relay `r`, whose consumer has received `received`.  That it
has fallen behind is said of some moment before. -/
inductive WatchPhase (behind : List (Event Entry) → Nat → Prop) (st : σ)
    (received : List (Event (Resource α))) (r : Relay (Resource α)) : Prop
  | following (taken : List (Event Entry)) (cursor : Cursor Entry) (hRunning : r.IsRunning)
      (hFollows : (p.read st).bus.Follows feed initial start taken cursor)
      (hLast : r.inHand = none ∨ r.isLast = false)
      (hEvents : received ++ r.held = taken.map s.shown)
  | expiring (taken : List (Event Entry)) (missed : Nat) (hRunning : r.IsRunning)
      (hTaken : taken <+: feedSequence p initial start st) (hBehind : behind taken missed)
      (hHand : r.inHand = some (s.expired missed)) (hLast : r.isLast = true)
      (hEvents : received ++ r.channel.queue = taken.map s.shown)
  | gone (taken : List (Event Entry)) (tail : List (Event (Resource α))) (hOver : ¬ r.IsRunning)
      (hTaken : taken <+: feedSequence p initial start st)
      (hTail : tail = [] ∨ ∃ missed, tail = [s.expired missed] ∧ behind taken missed)
      (hEvents : received ++ r.channel.queue <+: taken.map s.shown ++ tail)

end

section

variable {s : BlobStore (StateM σ) α} {p : Part σ MemoryContainer} {feed : Nat}
  {initial : List (Event Entry)} {start : Nat} {behind behind' : List (Event Entry) → Nat → Prop}
  {st st' : σ} {received : List (Event (Resource α))} {r : Relay (Resource α)}

theorem ChangeBus.Follows.taken_prefix {taken : List (Event Entry)} {cursor : Cursor Entry}
    (h : (p.read st).bus.Follows feed initial start taken cursor) :
    taken <+: feedSequence p initial start st :=
  ⟨_, h.sequence⟩

/-- The sequence of a feed only gets longer. -/
theorem feedSequence_grows {events : List (Event Entry)}
    (hStart : start ≤ (p.read st).bus.published)
    (hGrows : Grows (p.read st) events (p.read st')) :
    feedSequence p initial start st <+: feedSequence p initial start st' := by
  have hLog : (p.read st').bus.publishedSince start =
      (p.read st).bus.publishedSince start ++ events := by
    rw [ChangeBus.publishedSince, hGrows.log]
    exact List.drop_append_of_le_length hStart
  rw [feedSequence, feedSequence, hLog, ← List.append_assoc]
  exact List.prefix_append ..

/-- A phase goes on while the state changes elsewhere. -/
theorem WatchPhase.elsewhere (h : WatchPhase s p feed initial start behind st received r)
    (hBehind : ∀ taken missed, behind taken missed → behind' taken missed)
    (hSequence : feedSequence p initial start st <+: feedSequence p initial start st')
    (hFollows : ∀ taken cursor, (p.read st).bus.Follows feed initial start taken cursor →
      (p.read st').bus.Follows feed initial start taken cursor) :
    WatchPhase s p feed initial start behind' st' received r := by
  cases h with
  | following taken cursor hRunning hNow hLast hEvents =>
    exact .following taken cursor hRunning (hFollows taken cursor hNow) hLast hEvents
  | expiring taken missed hRunning hTaken hMissed hHand hLast hEvents =>
    exact .expiring taken missed hRunning (hTaken.trans hSequence) (hBehind taken missed hMissed)
      hHand hLast hEvents
  | gone taken tail hOver hTaken hTail hEvents =>
    refine .gone taken tail hOver (hTaken.trans hSequence) (hTail.imp_right ?_) hEvents
    rintro ⟨missed, hExpired, hMissed⟩
    exact ⟨missed, hExpired, hBehind taken missed hMissed⟩

/-- The beginning of `taken` as it is shown that has come out of a relay, and what the relay still
holds. -/
theorem WatchPhase.received_prefix (h : WatchPhase s p feed initial start behind st received r) :
    ∃ taken tail, taken <+: feedSequence p initial start st ∧
      (tail = [] ∨ ∃ missed, tail = [s.expired missed] ∧ behind taken missed) ∧
      received ++ r.channel.queue <+: taken.map s.shown ++ tail := by
  cases h with
  | following taken cursor hRunning hFollows hLast hEvents =>
    refine ⟨taken, [], hFollows.taken_prefix, .inl rfl, ?_⟩
    rw [List.append_nil, ← hEvents, Relay.held, ← List.append_assoc]
    exact List.prefix_append ..
  | expiring taken missed hRunning hTaken hBehind hHand hLast hEvents =>
    refine ⟨taken, [], hTaken, .inl rfl, ?_⟩
    rw [List.append_nil, hEvents]
  | gone taken tail hOver hTaken hTail hEvents => exact ⟨taken, tail, hTaken, hTail, hEvents⟩

/-- The consumer has received a beginning of the sequence; or such a beginning and the news that
the watch fell behind, and then the watch is over with nothing left. -/
theorem WatchPhase.received_cases (h : WatchPhase s p feed initial start behind st received r) :
    received <+: (feedSequence p initial start st).map s.shown ∨
      ∃ taken missed, received = taken.map s.shown ++ [s.expired missed] ∧ behind taken missed ∧
        ¬ r.IsRunning ∧ r.channel.queue = [] := by
  cases h with
  | following taken cursor hRunning hFollows hLast hEvents =>
    exact .inl ((hEvents ▸ List.prefix_append ..).trans (hFollows.taken_prefix.map s.shown))
  | expiring taken missed hRunning hTaken hBehind hHand hLast hEvents =>
    exact .inl ((hEvents ▸ List.prefix_append ..).trans (hTaken.map s.shown))
  | gone taken tail hOver hTaken hTail hEvents =>
    have hReceived : received <+: taken.map s.shown ++ tail := (List.prefix_append ..).trans hEvents
    rcases hTail with rfl | ⟨missed, rfl, hBehind⟩
    · rw [List.append_nil] at hReceived
      exact .inl (hReceived.trans (hTaken.map s.shown))
    · rcases List.prefix_concat_iff.1 hReceived with hAll | hShort
      · refine .inr ⟨taken, missed, hAll, hBehind, hOver, ?_⟩
        have hLength := hEvents.length_le
        rw [hAll, List.length_append] at hLength
        exact List.length_eq_zero_iff.1 (by omega)
      · exact .inl (hShort.trans (hTaken.map s.shown))

/-- A watch whose relay stops running is over. -/
theorem WatchPhase.toOver (h : WatchPhase s p feed initial start behind st received r)
    {received' : List (Event (Resource α))} {r' : Relay (Resource α)} (hOver : ¬ r'.IsRunning)
    (hEvents : received' ++ r'.channel.queue <+: received ++ r.channel.queue) :
    WatchPhase s p feed initial start behind st received' r' := by
  obtain ⟨taken, tail, hTaken, hTail, hPrefix⟩ := h.received_prefix
  exact .gone taken tail hOver hTaken hTail (hEvents.trans hPrefix)

/-- A phase goes on while events pass from the relay to the consumer. -/
theorem WatchPhase.passOn (h : WatchPhase s p feed initial start behind st received r)
    {received' : List (Event (Resource α))} {r' : Relay (Resource α)}
    (hEvents : received' ++ r'.channel.queue = received ++ r.channel.queue)
    (hHand : r'.inHand = r.inHand) (hLast : r'.isLast = r.isLast)
    (hSenders : r'.channel.senders = r.channel.senders)
    (hOpen : r'.channel.isOpen = r.channel.isOpen) :
    WatchPhase s p feed initial start behind st received' r' := by
  cases h with
  | following taken cursor hRunning hFollows hNext hTaken =>
    refine .following taken cursor (hRunning.congr hSenders hOpen) hFollows
      (by rwa [hHand, hLast]) ?_
    rw [Relay.held, ← List.append_assoc, hEvents, hHand, List.append_assoc]
    exact hTaken
  | expiring taken missed hRunning hTaken hBehind hExpired hNext hAll =>
    exact .expiring taken missed (hRunning.congr hSenders hOpen) hTaken hBehind
      (hHand.trans hExpired) (hLast.trans hNext) (hEvents.trans hAll)
  | gone taken tail hOver hTaken hTail hPrefix =>
    exact .gone taken tail (fun hRunning => hOver (hRunning.congr hSenders.symm hOpen.symm)) hTaken
      hTail (hEvents ▸ hPrefix)

/-! ### Steps of the relay -/

def afterTake (p : Part σ MemoryContainer) (feed : Nat) (st : σ) : σ :=
  p.write ((ContainerStep.receive feed).run (p.read st)) st

def afterCancel (p : Part σ MemoryContainer) (feed : Nat) (st : σ) : σ :=
  p.write ((ContainerStep.cancel feed).run (p.read st)) st

theorem take_eq {x : Taken (Resource α)} {w : Watch (StateM σ) (Resource α)} {t : σ}
    (hTake : (Watch.relayed (s.feedSource p feed) r).take.run st = ((x, w), t)) :
    s.taken ((ChangeBus.receive feed).run (p.read st).bus).1 = x ∧
      w = .relayed (s.feedSource p feed) r ∧ t = afterTake p feed st := by
  have hRun : (Watch.relayed (s.feedSource p feed) r).take.run st =
      ((s.taken ((ChangeBus.receive feed).run (p.read st).bus).1,
        .relayed (s.feedSource p feed) r), afterTake p feed st) := rfl
  rw [hRun] at hTake
  obtain ⟨hLeft, rfl⟩ := Prod.mk.inj hTake
  obtain ⟨hTaken, rfl⟩ := Prod.mk.inj hLeft
  exact ⟨hTaken, rfl, rfl⟩

/-- What the relay of a watch has come to by a step: how its own state has changed, and the state
around it. -/
structure RelayStep (s : BlobStore (StateM σ) α) (p : Part σ MemoryContainer) (feed : Nat)
    (initial : List (Event Entry)) (start : Nat) (behind : List (Event Entry) → Nat → Prop)
    (st : σ) (received : List (Event (Resource α))) (r : Relay (Resource α))
    (result : Watch (StateM σ) (Resource α) × σ) (r' : Relay (Resource α)) : Prop where
  watch : result.1 = .relayed (s.feedSource p feed) r'
  senders : r'.channel.senders ≤ r.channel.senders
  capacity : r'.channel.capacity = r.channel.capacity
  container : ∃ steps, p.read result.2 = ContainerStep.runAll steps (p.read st)
  phase : WatchPhase s p feed initial start behind result.2 received r'

theorem Relay.not_isRunning_finish (hSenders : r.channel.senders ≤ 1) : ¬ r.finish.IsRunning := by
  intro hRunning
  have hDone : r.finish.isDone = true := decide_eq_true (Nat.sub_eq_zero_of_le hSenders)
  rw [hRunning.notDone] at hDone
  cases hDone

theorem follows_afterTake {taken : List (Event Entry)} {cursor : Cursor Entry}
    (hFollows : (p.read st).bus.Follows feed initial start taken cursor)
    (hLag : ((ChangeBus.receive feed).run (p.read st).bus).1.isLag = false) :
    ∃ cursor', (p.read (afterTake p feed st)).bus.Follows feed initial start
      (taken ++ ((ChangeBus.receive feed).run (p.read st).bus).1.event?.toList) cursor' := by
  obtain ⟨cursor', hNext⟩ := hFollows.receive_self hLag
  refine ⟨cursor', ?_⟩
  rw [afterTake, p.read_write]
  exact hNext

variable (hSound : (p.read st).Sound) (hStart : start ≤ (p.read st).bus.published)

include hSound hStart

theorem feedSequence_step (step : ContainerStep) :
    feedSequence p initial start st <+:
      feedSequence p initial start (p.write (step.run (p.read st)) st) := by
  obtain ⟨-, events, hGrows⟩ := ContainerStep.grows_step hSound step
  have hWritten : Grows (p.read st) events (p.read (p.write (step.run (p.read st)) st)) := by
    rwa [p.read_write]
  exact feedSequence_grows hStart hWritten

/-- A relay that ends lets go of its feed, and the watch is over. -/
theorem WatchPhase.over_finish {taken : List (Event Entry)} {tail : List (Event (Resource α))}
    (hSenders : r.channel.senders ≤ 1) (hTaken : taken <+: feedSequence p initial start st)
    (hTail : tail = [] ∨ ∃ missed, tail = [s.expired missed] ∧ behind taken missed)
    (hEvents : received ++ r.channel.queue <+: taken.map s.shown ++ tail) :
    WatchPhase s p feed initial start behind (afterCancel p feed st) received r.finish :=
  .gone taken tail (Relay.not_isRunning_finish hSenders)
    (hTaken.trans (feedSequence_step hSound hStart (.cancel feed))) hTail hEvents

theorem RelayStep.finish {r' : Relay (Resource α)} (hSenders : r.channel.senders ≤ 1)
    (hSame : r'.channel.senders = r.channel.senders)
    (hCapacity : r'.channel.capacity = r.channel.capacity)
    {taken : List (Event Entry)} {tail : List (Event (Resource α))}
    (hTaken : taken <+: feedSequence p initial start st)
    (hTail : tail = [] ∨ ∃ missed, tail = [s.expired missed] ∧ behind taken missed)
    (hEvents : received ++ r'.channel.queue <+: taken.map s.shown ++ tail) :
    RelayStep s p feed initial start behind st received r
      ((Watch.relayed (s.feedSource p feed) r').finish.run st) r'.finish where
  watch := rfl
  senders := hSame ▸ Nat.sub_le ..
  capacity := hCapacity
  container := ⟨[.cancel feed], p.read_write ..⟩
  phase := .over_finish hSound hStart (hSame ▸ hSenders) hTaken hTail hEvents

/-- Steps of the container keep it sound, and what has been published stays so. -/
theorem sound_steps (steps : List ContainerStep)
    (hSteps : p.read st' = ContainerStep.runAll steps (p.read st)) :
    (p.read st').Sound ∧ start ≤ (p.read st').bus.published := by
  obtain ⟨hEnd, events, hGrows⟩ := ContainerStep.grows_run hSound steps
  have hLog := congrArg List.length hGrows.log
  rw [hSteps]
  refine ⟨hEnd, Nat.le_trans hStart ?_⟩
  simp only [ChangeBus.published, List.length_append, Array.length_toList] at hLog ⊢
  omega

omit hSound hStart in
theorem RelayStep.after_take {result : Watch (StateM σ) (Resource α) × σ}
    {r' : Relay (Resource α)}
    (h : RelayStep s p feed initial start behind (afterTake p feed st) received r result r') :
    RelayStep s p feed initial start behind st received r result r' where
  watch := h.watch
  senders := h.senders
  capacity := h.capacity
  container := by
    obtain ⟨steps, hSteps⟩ := h.container
    rw [afterTake, p.read_write] at hSteps
    exact ⟨.receive feed :: steps, hSteps⟩
  phase := h.phase

theorem RelayStep.of_following {taken : List (Event Entry)} {cursor : Cursor Entry}
    (hSenders : r.channel.senders ≤ 1) (hRunning : r.IsRunning)
    (hFollows : (p.read st).bus.Follows feed initial start taken cursor)
    (hLast : r.inHand = none ∨ r.isLast = false)
    (hEvents : received ++ r.held = taken.map s.shown)
    (hNow : ∀ taken missed, FellBehind p initial start taken missed st → behind taken missed) :
    ∃ r', RelayStep s p feed initial start behind st received r
      (((Watch.relayed (s.feedSource p feed) r).step.run st).1.2,
        ((Watch.relayed (s.feedSource p feed) r).step.run st).2) r' := by
  have hOutcome : Watch.StepOutcome (.relayed (s.feedSource p feed) r) r st _ :=
    Watch.step_outcome _ st
  have hTook : ∃ steps, p.read (afterTake p feed st) = ContainerStep.runAll steps (p.read st) :=
    ⟨[.receive feed], p.read_write ..⟩
  generalize (Watch.relayed (s.feedSource p feed) r).step.run st = outcome at hOutcome
  cases hOutcome with
  | done hDone => exact absurd (hRunning.notDone.symm.trans hDone) Bool.false_ne_true
  | cancelled _ hClosed => exact absurd (hClosed.symm.trans hRunning.isOpen) Bool.false_ne_true
  | blocked =>
    exact ⟨r, rfl, Nat.le_refl _, rfl, ⟨[], rfl⟩, .following taken cursor hRunning hFollows hLast
      hEvents⟩
  | delivered e _ hHand hRoom _ =>
    have hChannel : (r.deliver e).channel = _ := Relay.channel_deliver hRunning hRoom
    refine ⟨r.deliver e, rfl, by rw [hChannel], by rw [hChannel], ⟨[], rfl⟩, ?_⟩
    refine .following taken cursor (hRunning.congr (by rw [hChannel]) (by rw [hChannel])) hFollows
      (.inl rfl) ?_
    rw [Relay.held_deliver hRunning hRoom hHand]
    exact hEvents
  | deliveredLast e _ hHand _ hNext =>
    rcases hLast with hNone | hNot
    · exact absurd (hNone.symm.trans hHand) nofun
    · exact absurd (hNot.symm.trans hNext) Bool.false_ne_true
  | held e w t _ hHand hTake _ =>
    obtain ⟨hTaken, rfl, rfl⟩ := take_eq hTake
    obtain ⟨next, hReceipt, rfl⟩ := BlobStore.taken_eq_event hTaken
    obtain ⟨cursor', hFurther⟩ := follows_afterTake hFollows (by rw [hReceipt]; rfl)
    have hHeld : (r.hold (s.shown next) false).held = r.held ++ [s.shown next] :=
      Relay.held_hold hHand
    refine ⟨r.hold (s.shown next) false, rfl, Nat.le_refl _, rfl, hTook, ?_⟩
    refine .following _ cursor' (hRunning.congr rfl rfl) hFurther (.inr rfl) ?_
    rw [hHeld, ← List.append_assoc, hEvents, hReceipt, List.map_append]
    rfl
  | skipped e w t _ _ hTake hPasses =>
    obtain ⟨-, rfl, -⟩ := take_eq hTake
    cases hPasses
  | heldLast e w t _ hHand hTake =>
    obtain ⟨hTaken, rfl, rfl⟩ := take_eq hTake
    obtain ⟨missed, hReceipt, rfl⟩ := BlobStore.taken_eq_last hTaken
    obtain ⟨hPositive, hLength⟩ := hFollows.missed hReceipt
    rw [Relay.held_of_empty hHand] at hEvents
    exact ⟨r.hold (s.expired missed) true, rfl, Nat.le_refl _, rfl, hTook,
      .expiring taken missed (hRunning.congr rfl rfl)
        (hFollows.taken_prefix.trans (feedSequence_step hSound hStart (.receive feed)))
        (hNow taken missed ⟨hFollows.taken_prefix, hPositive, hLength⟩) rfl rfl hEvents⟩
  | waiting w t _ hHand hTake =>
    obtain ⟨hTaken, rfl, rfl⟩ := take_eq hTake
    have hReceipt := BlobStore.taken_eq_pending hTaken
    obtain ⟨cursor', hFurther⟩ := follows_afterTake hFollows (by rw [hReceipt]; rfl)
    rw [hReceipt] at hFurther
    refine ⟨r, rfl, Nat.le_refl _, rfl, hTook, .following _ cursor' hRunning hFurther hLast ?_⟩
    rw [hEvents]
    simp [Receipt.event?]
  | ended w t _ hHand hTake =>
    obtain ⟨-, rfl, rfl⟩ := take_eq hTake
    obtain ⟨hSound', hStart'⟩ := sound_steps hSound hStart [.receive feed] (p.read_write _ st)
    have hTaken := hFollows.taken_prefix.trans (feedSequence_step hSound hStart (.receive feed))
    rw [Relay.held_of_empty hHand] at hEvents
    refine ⟨r.finish, .after_take (.finish hSound' hStart' hSenders rfl rfl hTaken (.inl rfl) ?_)⟩
    rw [List.append_nil, hEvents]

theorem RelayStep.of_expiring {taken : List (Event Entry)} {missed : Nat}
    (hSenders : r.channel.senders ≤ 1) (hRunning : r.IsRunning)
    (hTaken : taken <+: feedSequence p initial start st) (hBehind : behind taken missed)
    (hExpired : r.inHand = some (s.expired missed)) (hLast : r.isLast = true)
    (hEvents : received ++ r.channel.queue = taken.map s.shown) :
    ∃ r', RelayStep s p feed initial start behind st received r
      (((Watch.relayed (s.feedSource p feed) r).step.run st).1.2,
        ((Watch.relayed (s.feedSource p feed) r).step.run st).2) r' := by
  have hOutcome : Watch.StepOutcome (.relayed (s.feedSource p feed) r) r st _ :=
    Watch.step_outcome _ st
  generalize (Watch.relayed (s.feedSource p feed) r).step.run st = outcome at hOutcome
  cases hOutcome with
  | done hDone => exact absurd (hRunning.notDone.symm.trans hDone) Bool.false_ne_true
  | cancelled _ hClosed => exact absurd (hClosed.symm.trans hRunning.isOpen) Bool.false_ne_true
  | blocked =>
    exact ⟨r, rfl, Nat.le_refl _, rfl, ⟨[], rfl⟩, .expiring taken missed hRunning hTaken hBehind
      hExpired hLast hEvents⟩
  | delivered _ _ _ _ hMore => exact absurd (hMore.symm.trans hLast) Bool.false_ne_true
  | deliveredLast e _ hHand hRoom _ =>
    obtain rfl : s.expired missed = e := Option.some.inj (hExpired.symm.trans hHand)
    have hChannel : (r.deliver (s.expired missed)).channel = _ :=
      Relay.channel_deliver hRunning hRoom
    refine ⟨_, .finish hSound hStart hSenders (by rw [hChannel]) (by rw [hChannel]) hTaken
      (.inr ⟨missed, rfl, hBehind⟩) ?_⟩
    rw [hChannel, ← hEvents, List.append_assoc]
  | held _ _ _ _ hHand => exact absurd (hExpired.symm.trans hHand) nofun
  | skipped _ _ _ _ hHand => exact absurd (hExpired.symm.trans hHand) nofun
  | heldLast _ _ _ _ hHand => exact absurd (hExpired.symm.trans hHand) nofun
  | waiting _ _ _ hHand => exact absurd (hExpired.symm.trans hHand) nofun
  | ended _ _ _ hHand => exact absurd (hExpired.symm.trans hHand) nofun

theorem RelayStep.of_over {taken : List (Event Entry)} {tail : List (Event (Resource α))}
    (hSenders : r.channel.senders ≤ 1) (hOver : ¬ r.IsRunning)
    (hTaken : taken <+: feedSequence p initial start st)
    (hTail : tail = [] ∨ ∃ missed, tail = [s.expired missed] ∧ behind taken missed)
    (hEvents : received ++ r.channel.queue <+: taken.map s.shown ++ tail) :
    ∃ r', RelayStep s p feed initial start behind st received r
      (((Watch.relayed (s.feedSource p feed) r).step.run st).1.2,
        ((Watch.relayed (s.feedSource p feed) r).step.run st).2) r' := by
  have hOutcome : Watch.StepOutcome (.relayed (s.feedSource p feed) r) r st _ :=
    Watch.step_outcome _ st
  generalize (Watch.relayed (s.feedSource p feed) r).step.run st = outcome at hOutcome
  cases hOutcome with
  | done =>
    exact ⟨r, rfl, Nat.le_refl _, rfl, ⟨[], rfl⟩, .gone taken tail hOver hTaken hTail hEvents⟩
  | cancelled =>
    exact ⟨r.finish, .finish hSound hStart hSenders rfl rfl hTaken hTail hEvents⟩
  | blocked _ hRunning => exact absurd hRunning hOver
  | delivered _ hRunning => exact absurd hRunning hOver
  | deliveredLast _ hRunning => exact absurd hRunning hOver
  | held _ _ _ hRunning => exact absurd hRunning hOver
  | skipped _ _ _ hRunning => exact absurd hRunning hOver
  | heldLast _ _ _ hRunning => exact absurd hRunning hOver
  | waiting _ _ hRunning => exact absurd hRunning hOver
  | ended _ _ hRunning => exact absurd hRunning hOver

/-- A step of the relay of a watch. -/
theorem RelayStep.of_phase (h : WatchPhase s p feed initial start behind st received r)
    (hSenders : r.channel.senders ≤ 1)
    (hNow : ∀ taken missed, FellBehind p initial start taken missed st → behind taken missed) :
    ∃ r', RelayStep s p feed initial start behind st received r
      (((Watch.relayed (s.feedSource p feed) r).step.run st).1.2,
        ((Watch.relayed (s.feedSource p feed) r).step.run st).2) r' := by
  cases h with
  | following taken cursor hRunning hFollows hLast hEvents =>
    exact RelayStep.of_following hSound hStart hSenders hRunning hFollows hLast hEvents hNow
  | expiring taken missed hRunning hTaken hBehind hHand hLast hEvents =>
    exact RelayStep.of_expiring hSound hStart hSenders hRunning hTaken hBehind hHand hLast hEvents
  | gone taken tail hOver hTaken hTail hEvents =>
    exact RelayStep.of_over hSound hStart hSenders hOver hTaken hTail hEvents

end

/-! ## Runs of a watch -/

section

variable (s : BlobStore (StateM σ) α) (p : Part σ MemoryContainer) (feed : Nat)
  (initial : List (Event Entry)) (start : Nat) (behind : List (Event Entry) → Nat → Prop)

/-- What is true of a watch, and of the state around it, at all times. -/
structure IsWatching (now : Watching σ (Resource α) × σ) : Prop where
  sound : (p.read now.2).Sound
  started : start ≤ (p.read now.2).bus.published
  relay : ∃ r, now.1.watch = .relayed (s.feedSource p feed) r ∧ r.channel.senders ≤ 1 ∧
    0 < r.channel.capacity ∧ WatchPhase s p feed initial start behind now.2 now.1.received r

end

namespace IsWatching

variable {s : BlobStore (StateM σ) α} {p : Part σ MemoryContainer} {feed : Nat}
  {initial : List (Event Entry)} {start : Nat} {behind behind' : List (Event Entry) → Nat → Prop}
  {v : Watching σ (Resource α)} {st : σ}

theorem mono (h : IsWatching s p feed initial start behind (v, st))
    (hBehind : ∀ taken missed, behind taken missed → behind' taken missed) :
    IsWatching s p feed initial start behind' (v, st) := by
  obtain ⟨r, hWatch, hSenders, hCapacity, hPhase⟩ := h.relay
  exact ⟨h.sound, h.started, r, hWatch, hSenders, hCapacity,
    hPhase.elsewhere hBehind (List.prefix_refl _) fun _ _ hFollows => hFollows⟩

theorem container (h : IsWatching s p feed initial start behind (v, st)) {step : ContainerStep}
    (hSpares : Turn.Spares feed (.other step)) :
    IsWatching s p feed initial start behind (v, p.write (step.run (p.read st)) st) := by
  obtain ⟨r, hWatch, hSenders, hCapacity, hPhase⟩ := h.relay
  obtain ⟨hSound, hStarted⟩ := sound_steps h.sound h.started [step] (p.read_write _ st)
  refine ⟨hSound, hStarted, r, hWatch, hSenders, hCapacity, hPhase.elsewhere (fun _ _ hMissed =>
    hMissed) (feedSequence_step h.sound h.started step) fun taken cursor hFollows => ?_⟩
  rw [p.read_write]
  exact hFollows.step h.sound hSpares

theorem relayStep (h : IsWatching s p feed initial start behind (v, st))
    (hNow : ∀ taken missed, FellBehind p initial start taken missed st → behind taken missed)
    (level : Nat) :
    IsWatching s p feed initial start behind ((v.move (.relay level)).run st) := by
  obtain ⟨r, hWatch, hSenders, hCapacity, hPhase⟩ := h.relay
  by_cases hLevel : level = 0
  · have hRun : (v.move (.relay level)).run st =
        (⟨((Watch.relayed (s.feedSource p feed) r).step.run st).1.2, v.received⟩,
          ((Watch.relayed (s.feedSource p feed) r).step.run st).2) := by
      rw [hLevel, Watching.move, hWatch]
      rfl
    obtain ⟨r', hStep⟩ := RelayStep.of_phase h.sound h.started hPhase hSenders hNow
    obtain ⟨steps, hSteps⟩ := hStep.container
    obtain ⟨hSound, hStarted⟩ := sound_steps h.sound h.started steps hSteps
    rw [hRun]
    exact ⟨hSound, hStarted, r', hStep.watch, Nat.le_trans hStep.senders hSenders,
      hStep.capacity.symm ▸ hCapacity, hStep.phase⟩
  · have hRun : (v.move (.relay level)).run st = (v, st) := by
      have hDepth : ¬ (Watch.relayed (s.feedSource p feed) r).depth = level := fun hEq =>
        hLevel hEq.symm
      rw [Watching.move, hWatch, Watch.stepAt, if_neg hDepth, ← hWatch]
      rfl
    rw [hRun]
    exact h

theorem consume (h : IsWatching s p feed initial start behind (v, st)) (move : WatchMove)
    (hConsumer : ∀ level, move ≠ .relay level) :
    IsWatching s p feed initial start behind ((v.move move).run st) := by
  obtain ⟨r, hWatch, hSenders, hCapacity, hPhase⟩ := h.relay
  obtain ⟨watch, received⟩ := v
  obtain rfl : watch = .relayed (s.feedSource p feed) r := hWatch
  cases move with
  | relay level => exact absurd rfl (hConsumer level)
  | receive =>
    rcases r.channel.receive_cases with ⟨e, rest, hQueue, hRun⟩ | ⟨delivery, hQueue, hNone, hRun⟩
    · have hMove : (Watching.move ⟨.relayed (s.feedSource p feed) r, received⟩ .receive).run st =
          (⟨.relayed (s.feedSource p feed) { r with channel := { r.channel with queue := rest } },
            received ++ [e]⟩, st) := by
        simp only [Watching.move, Watch.receive, Watch.relay, hRun]
        rfl
      rw [hMove]
      refine ⟨h.sound, h.started, _, rfl, hSenders, hCapacity, hPhase.passOn ?_ rfl rfl rfl rfl⟩
      rw [hQueue, List.append_assoc]
      rfl
    · have hMove : (Watching.move ⟨.relayed (s.feedSource p feed) r, received⟩ .receive).run st =
          (⟨.relayed (s.feedSource p feed) r, received⟩, st) := by
        simp only [Watching.move, Watch.receive, Watch.relay, hRun, hNone, Option.toList_none,
          List.append_nil]
        rfl
      rw [hMove]
      exact h
  | stop =>
    refine ⟨h.sound, h.started, _, rfl, hSenders, hCapacity, hPhase.toOver ?_ (List.prefix_refl _)⟩
    exact fun hRunning => absurd hRunning.isOpen Bool.false_ne_true
  | drop =>
    refine ⟨h.sound, h.started, _, rfl, hSenders, hCapacity, hPhase.toOver ?_ ?_⟩
    · exact fun hRunning => absurd hRunning.isOpen Bool.false_ne_true
    · exact (List.append_nil received).symm ▸ List.prefix_append ..

theorem turn (h : IsWatching s p feed initial start behind (v, st)) {turn : WatchTurn}
    (hSpares : turn.Spares feed)
    (hNow : ∀ taken missed, FellBehind p initial start taken missed st → behind taken missed) :
    IsWatching s p feed initial start behind (turn.run p (v, st)) := by
  match turn with
  | .container step => exact h.container hSpares
  | .watch (.relay level) => exact h.relayStep hNow level
  | .watch .receive => exact h.consume .receive nofun
  | .watch .stop => exact h.consume .stop nofun
  | .watch .drop => exact h.consume .drop nofun

/-- A watch whose relay waits with an empty channel has delivered everything. -/
theorem complete (h : IsWatching s p feed initial start behind (v, st))
    (hRunning : v.watch.relay.IsRunning) (hWaits : (v.watch.step.run st).1.1 = false)
    (hEmpty : v.watch.relay.channel.queue = []) :
    v.received = (feedSequence p initial start st).map s.shown := by
  obtain ⟨r, hWatch, -, hCapacity, hPhase⟩ := h.relay
  obtain ⟨watch, received⟩ := v
  obtain rfl : watch = .relayed (s.feedSource p feed) r := hWatch
  have hRoom : r.channel.room ≠ 0 := by
    have hQueue : r.channel.queue.length = 0 := congrArg List.length hEmpty
    rw [Channel.room]
    omega
  have hOutcome : Watch.StepOutcome (.relayed (s.feedSource p feed) r) r st _ :=
    Watch.step_outcome _ st
  dsimp only at hWaits
  generalize (Watch.relayed (s.feedSource p feed) r).step.run st = outcome at hOutcome hWaits
  cases hOutcome with
  | done hDone => exact absurd (hRunning.notDone.symm.trans hDone) Bool.false_ne_true
  | blocked _ _ _ hFull => exact absurd hFull hRoom
  | waiting w t _ hHand hTake =>
    obtain ⟨hTaken, -, -⟩ := take_eq hTake
    have hReceipt := BlobStore.taken_eq_pending hTaken
    cases hPhase with
    | following taken cursor _ hFollows _ hEvents =>
      have hAll : taken = feedSequence p initial start st :=
        hFollows.eq_of_pending (by rw [hReceipt]; rfl)
      have hQueue : r.channel.queue = [] := hEmpty
      rw [Relay.held_of_empty hHand, hQueue, List.append_nil] at hEvents
      rw [← hAll]
      exact hEvents
    | expiring _ _ _ _ _ hExpired => exact absurd (hExpired.symm.trans hHand) nofun
    | gone _ _ hOver => exact absurd hRunning hOver
  | _ => cases hWaits

end IsWatching

/-- The watch has fallen behind at some moment in the course of the turns. -/
def FellBehindIn (p : Part σ MemoryContainer) (initial : List (Event Entry)) (start : Nat)
    (opened : Watching σ (Resource α) × σ) (turns : List WatchTurn) (taken : List (Event Entry))
    (missed : Nat) : Prop :=
  ∃ earlier, earlier <+: turns ∧
    FellBehind p initial start taken missed (WatchTurn.runAll p earlier opened).2

theorem isWatching_run {s : BlobStore (StateM σ) α} {p : Part σ MemoryContainer} {feed : Nat}
    {initial : List (Event Entry)} {start : Nat} {opened : Watching σ (Resource α) × σ}
    {before : List WatchTurn}
    (h : IsWatching s p feed initial start (FellBehindIn p initial start opened before)
      (WatchTurn.runAll p before opened)) {turns : List WatchTurn}
    (hSpares : ∀ turn ∈ turns, turn.Spares feed) :
    IsWatching s p feed initial start (FellBehindIn p initial start opened (before ++ turns))
      (WatchTurn.runAll p (before ++ turns) opened) := by
  induction turns generalizing before with
  | nil => rwa [List.append_nil]
  | cons turn turns ih =>
    obtain ⟨hTurn, hRest⟩ := List.forall_mem_cons.1 hSpares
    have hLater : ∀ taken missed, FellBehindIn p initial start opened before taken missed →
        FellBehindIn p initial start opened (before ++ [turn]) taken missed := by
      rintro taken missed ⟨earlier, hEarlier, hBehind⟩
      exact ⟨earlier, hEarlier.trans (List.prefix_append ..), hBehind⟩
    have hNext := (h.mono hLater).turn hTurn fun taken missed hBehind =>
      ⟨before, List.prefix_append .., hBehind⟩
    have hRun : WatchTurn.runAll p (before ++ [turn]) opened =
        turn.run p (WatchTurn.runAll p before opened) := WatchTurn.runAll_append ..
    rw [List.append_cons]
    exact ih (hRun ▸ hNext) hRest

/-- After its end the consumer receives at most what it has been given by then. -/
theorem over_runAll {p : Part σ MemoryContainer} {now : Watching σ α × σ}
    (hOver : ¬ now.1.watch.relay.IsRunning) (turns : List WatchTurn) :
    now.1.received <+: (WatchTurn.runAll p turns now).1.received ∧
      (WatchTurn.runAll p turns now).1.received <+:
        now.1.received ++ now.1.watch.relay.channel.queue := by
  induction turns generalizing now with
  | nil => exact ⟨List.prefix_refl _, List.prefix_append ..⟩
  | cons turn turns ih =>
    cases turn with
    | container step =>
      have hStill : ¬ (WatchTurn.run p now (.container step)).1.watch.relay.IsRunning := hOver
      exact ih hStill
    | watch move =>
      obtain ⟨hStill, hLess⟩ := Watching.over_move hOver move now.2
      obtain ⟨hMore, hEnd⟩ := ih hStill
      exact ⟨(now.1.received_prefix_move move now.2).trans hMore, hEnd.trans hLess⟩

def MemoryContainer.initialEvents (options : ListOptions) (c : MemoryContainer) :
    List (Event Entry) :=
  if options.sendInitialEvents then c.entries.values.map .added else []

section

variable {s : BlobStore (StateM σ) α} {p : Part σ MemoryContainer}
  (hContainer : s.container = MemoryContainer.container p.cell)
  (hSupported : s.capabilities.supports .watch = true) (options : ListOptions) (st : σ)

include hContainer hSupported

theorem BlobStore.runOn_watch :
    runOn (s.watch options) st =
      (.ok (.relayed (s.feedSource p ((p.read st).openedFeed options))
          (.ofCapacity s.config.watchBufferSize)),
        p.write ((ContainerStep.watch options).run (p.read st)) st) := by
  rw [watch, runOn_bind, runOn_ofExcept, Capabilities.require_eq_ok hSupported]
  simp only [runOn_bind, access, hContainer]
  rfl

theorem isWatching_opened (hSound : (p.read st).Sound) :
    ∃ w st', runOn (s.watch options) st = (.ok w, st') ∧
      ∀ behind, IsWatching s p ((p.read st).openedFeed options)
        ((p.read st).initialEvents options) (p.read st).bus.published behind (⟨w, []⟩, st') := by
  refine ⟨_, _, BlobStore.runOn_watch hContainer hSupported options st, fun behind => ?_⟩
  obtain ⟨hNext, hStarted⟩ := sound_steps hSound (Nat.le_refl (p.read st).bus.published)
    [.watch options] (p.read_write _ st)
  have hBus : (p.read (p.write ((ContainerStep.watch options).run (p.read st)) st)).bus =
      ((ChangeBus.subscribe ((p.read st).initialEvents options)).run (p.read st).bus).2 := by
    rw [p.read_write]
    rfl
  have hFollows := ChangeBus.follows_subscribe hSound.numbered ((p.read st).initialEvents options)
  rw [← hBus] at hFollows
  refine ⟨hNext, hStarted, _, rfl, Nat.le_refl 1, Nat.le_max_right ..,
    .following [] _ ⟨rfl, rfl⟩ hFollows (.inl rfl) rfl⟩

end

/-- Let a container be written to in any way, and let a store open a watch then.  Whatever happens
from then on, the consumer of the watch has received a beginning of one sequence, each event as it
is shown: first the entries that there were in the order of their names, if the watch was asked for
them, then what has been published since, in its order.  Or it has received such a beginning and
then the news that the watch fell behind; then at some moment the bus did not hold the next events
any more, as many of them as the news says, and nothing will follow.  A running watch that waits
with an empty channel has delivered all of the sequence. -/
theorem watch_has_no_silent_gap (s : BlobStore (StateM σ) α) (p : Part σ MemoryContainer)
    (hContainer : s.container = MemoryContainer.container p.cell)
    (hSupported : s.capabilities.supports .watch = true) (capacity : Nat)
    (history : List ContainerStep) (st : σ)
    (hHistory : p.read st = ContainerStep.runAll history (.ofCapacity capacity))
    (options : ListOptions) (turns : List WatchTurn)
    (hSpares : ∀ turn ∈ turns, turn.Spares ((p.read st).openedFeed options)) :
    let c := p.read st
    let initial := c.initialEvents options
    ∃ w st', runOn (s.watch options) st = (.ok w, st') ∧
      let run := fun turns => WatchTurn.runAll p turns (⟨w, []⟩, st')
      let received := fun turns => (run turns).1.received
      let sequence := feedSequence p initial c.bus.published (run turns).2
      Ascending c.entries.values ∧
      (received turns <+: sequence.map s.shown ∨
        ∃ taken missed earlier, received turns = taken.map s.shown ++ [s.expired missed] ∧
          earlier <+: turns ∧ FellBehind p initial c.bus.published taken missed (run earlier).2 ∧
          ∀ more, received (turns ++ more) = received turns) ∧
      ((run turns).1.watch.relay.IsRunning → (run turns).1.watch.relay.channel.queue = [] →
        ((run turns).1.watch.step.run (run turns).2).1.1 = false →
          received turns = sequence.map s.shown) := by
  intro c initial
  have hSound : (p.read st).Sound := by
    rw [hHistory]
    exact (ContainerStep.grows_run (MemoryContainer.sound_ofCapacity capacity) history).1
  obtain ⟨w, st', hOpened, hWatching⟩ := isWatching_opened hContainer hSupported options st hSound
  have hStart : IsWatching s p _ initial _
      (FellBehindIn p initial c.bus.published (⟨w, []⟩, st') [])
      (WatchTurn.runAll p [] (⟨w, []⟩, st')) := hWatching _
  have hNow := isWatching_run hStart hSpares
  rw [List.nil_append] at hNow
  refine ⟨w, st', hOpened, hSound.named.ascending_values, ?_, fun hRunning hEmpty hWaits =>
    hNow.complete hRunning hWaits hEmpty⟩
  obtain ⟨r, hWatch, -, -, hPhase⟩ := hNow.relay
  rcases hPhase.received_cases with hBeginning |
    ⟨taken, missed, hReceived, ⟨earlier, hEarlier, hBehind⟩, hOver, hEmpty⟩
  · exact .inl hBeginning
  · refine .inr ⟨taken, missed, earlier, hReceived, hEarlier, hBehind, fun more => ?_⟩
    have hRelay : (WatchTurn.runAll p turns (⟨w, []⟩, st')).1.watch.relay = r := by
      rw [hWatch]
      rfl
    obtain ⟨hMore, hLess⟩ := over_runAll (p := p) (hRelay.symm ▸ hOver) more
    rw [hRelay, hEmpty, List.append_nil] at hLess
    rw [← WatchTurn.runAll_append] at hMore hLess
    exact hLess.eq_of_length_le hMore.length_le

/-! ## A watch that falls behind -/

def Codec.someBytes : Codec Bytes where
  encode := .ok
  decode bytes := if bytes.isEmpty then .error (.decode "no bytes") else .ok bytes
  contentType := "application/octet-stream"

def BlobStore.narrow : BlobStore (StateM MemoryContainer) Bytes :=
  ⟨.organization, MemoryContainer.container .whole, .someBytes, { watchBufferSize := 1 }, .all⟩

/-- While the relay waits with the second event in hand, three entries are made; the bus holds one
event. -/
def WatchTurn.slow : List WatchTurn :=
  let creating (name : String) : WatchTurn :=
    .container (.write (.create ⟨name, ⟨0, 0⟩⟩ name [1]))
  [.watch (.relay 0), .watch (.relay 0), .watch (.relay 0), creating "c", creating "d",
    creating "e", .watch .receive, .watch (.relay 0), .watch .receive, .watch (.relay 0),
    .watch (.relay 0), .watch .receive, creating "f"]

/-- The second entry cannot be read. -/
theorem watch_has_no_silent_gap_slow :
    let history := [(.write (.create ⟨"1", ⟨0, 0⟩⟩ "a" [1]) : ContainerStep),
      .write (.create ⟨"2", ⟨0, 0⟩⟩ "b" [])]
    let st := ContainerStep.runAll history (.ofCapacity 1)
    let options : ListOptions := { sendInitialEvents := true }
    (∀ turn ∈ WatchTurn.slow, turn.Spares (st.openedFeed options)) ∧
    ∃ w st', runOn (BlobStore.narrow.watch options) st = (.ok w, st') ∧
      let received := fun turns => (WatchTurn.runAll .whole turns (⟨w, []⟩, st')).1.received
      (received WatchTurn.slow).map (·.type) = [.added, .error, .error] ∧
      (received WatchTurn.slow).getLast? = some (BlobStore.narrow.expired 2) ∧
      ∀ more, received (WatchTurn.slow ++ more) = received WatchTurn.slow := by
  intro history st options
  have hSpares : ∀ turn ∈ WatchTurn.slow, turn.Spares (st.openedFeed options) := by
    simp only [WatchTurn.slow, List.forall_mem_cons]
    exact ⟨trivial, trivial, trivial, .write _, .write _, .write _, trivial, trivial, trivial,
      trivial, trivial, trivial, .write _, List.forall_mem_nil _⟩
  obtain ⟨w, st', hOpened, -, hReceived, -⟩ := watch_has_no_silent_gap BlobStore.narrow .whole rfl
    rfl 1 history st rfl options WatchTurn.slow hSpares
  refine ⟨hSpares, w, st', hOpened, ?_⟩
  have hConcrete := hOpened.symm.trans
    (BlobStore.runOn_watch (p := .whole) (s := BlobStore.narrow) rfl rfl options st)
  obtain ⟨hWatch, rfl⟩ := Prod.mk.inj hConcrete
  obtain rfl := Except.ok.inj hWatch
  rcases hReceived with hBeginning | ⟨_, _, _, _, _, _, hEnd⟩
  · exact absurd hBeginning (by decide +kernel)
  · exact ⟨by decide +kernel, by decide +kernel, hEnd⟩

end Tenancy
