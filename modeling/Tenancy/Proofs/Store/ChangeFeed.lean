import Tenancy.Proofs.Store.ChangeLog

/-!
# The change feed as a log of the container

A feed that begins with an event for each entry is, as long as it does not fall behind, a faithful
log of its container.  An `Observation` is the container together with what one feed has been given,
while everything else may happen to the container and to its other feeds.

* `Observation.onTrack_run`: what the feed has been given is the beginning of its sequence.
* `change_feed_faithful`: the sequence, replayed from nothing, gives the entries of the container.
-/

namespace Tenancy

structure Observation where
  container : MemoryContainer
  receipts : List (Receipt Entry)

/-- What happens next: the feed is asked for its next event, or something else happens. -/
inductive Turn where
  | take
  | other (step : ContainerStep)

/-- The turn does not touch the feed behind the back of its subscriber. -/
inductive Turn.Spares (feed : Nat) : Turn → Prop
  | take : Spares feed .take
  | write (w : ContainerWrite) : Spares feed (.other (.write w))
  | watch (options : ListOptions) : Spares feed (.other (.watch options))
  | receive {other : Nat} (hNe : other ≠ feed) : Spares feed (.other (.receive other))
  | cancel {other : Nat} (hNe : other ≠ feed) : Spares feed (.other (.cancel other))

/-- A feed goes on following whatever else happens to its container. -/
theorem ChangeBus.Follows.step {c : MemoryContainer} {feed start : Nat}
    {initial received : List (Event Entry)} {cursor : Cursor Entry}
    (h : c.bus.Follows feed initial start received cursor) (hSound : c.Sound)
    {step : ContainerStep} (hSpares : Turn.Spares feed (.other step)) :
    (step.run c).bus.Follows feed initial start received cursor := by
  cases hSpares with
  | write w =>
    have hOutcome := ContainerWrite.outcome_run hSound w
    simp only [ContainerStep.run]
    generalize runOn w.run c = outcome at hOutcome
    cases hOutcome with
    | failed e => exact h
    | published c' e hBus _ _ =>
      dsimp only
      rw [hBus]
      exact h.publish e
  | watch options => exact h.subscribe _
  | receive hNe => exact h.receive_other hNe
  | cancel hNe => exact h.unsubscribe_other hNe

namespace Observation

def turn (feed : Nat) (o : Observation) : Turn → Observation
  | .take =>
    let (receipt, c) := (MemoryContainer.receive feed).run o.container
    ⟨c, o.receipts ++ [receipt]⟩
  | .other step => ⟨step.run o.container, o.receipts⟩

def run (feed : Nat) (turns : List Turn) (o : Observation) : Observation :=
  turns.foldl (turn feed) o

def events (o : Observation) : List (Event Entry) := o.receipts.filterMap Receipt.event?

def Lags (o : Observation) : Prop := ∃ receipt ∈ o.receipts, receipt.isLag = true

def IsDrained (feed : Nat) (o : Observation) : Prop :=
  ((MemoryContainer.receive feed).run o.container).1.isPending = true

variable {feed start : Nat} {initial : List (Event Entry)} {o : Observation}

/-- The feed goes through its sequence unless it has fallen behind. -/
def OnTrack (feed : Nat) (initial : List (Event Entry)) (start : Nat) (o : Observation) : Prop :=
  o.Lags ∨ ∃ cursor, o.container.bus.Follows feed initial start o.events cursor

theorem events_take (feed : Nat) (o : Observation) :
    (o.turn feed .take).events =
      o.events ++ ((ChangeBus.receive feed).run o.container.bus).1.event?.toList := by
  have hReceipts : (o.turn feed .take).receipts =
      o.receipts ++ [((ChangeBus.receive feed).run o.container.bus).1] := rfl
  rw [events, hReceipts, List.filterMap_append, events, List.filterMap_cons, List.filterMap_nil]
  cases ((ChangeBus.receive feed).run o.container.bus).1.event? <;> rfl

theorem onTrack_turn (hSound : o.container.Sound) (h : OnTrack feed initial start o) {turn : Turn}
    (hTurn : turn.Spares feed) : OnTrack feed initial start (o.turn feed turn) := by
  rcases h with ⟨receipt, hMem, hLag⟩ | ⟨cursor, hFollows⟩
  · refine .inl ⟨receipt, ?_, hLag⟩
    cases turn with
    | take => exact List.mem_append_left _ hMem
    | other step => exact hMem
  · cases hTurn with
    | take =>
      cases hLag : ((ChangeBus.receive feed).run o.container.bus).1.isLag with
      | true => exact .inl ⟨_, List.mem_append_right _ (List.mem_singleton.2 rfl), hLag⟩
      | false =>
        obtain ⟨cursor', hNext⟩ := hFollows.receive_self hLag
        rw [← events_take] at hNext
        exact .inr ⟨cursor', hNext⟩
    | write w => exact .inr ⟨cursor, hFollows.step hSound (.write w)⟩
    | watch options => exact .inr ⟨cursor, hFollows.step hSound (.watch options)⟩
    | receive hNe => exact .inr ⟨cursor, hFollows.step hSound (.receive hNe)⟩
    | cancel hNe => exact .inr ⟨cursor, hFollows.step hSound (.cancel hNe)⟩

theorem grows_turn (feed : Nat) (hSound : o.container.Sound) (turn : Turn) :
    (o.turn feed turn).container.Sound ∧
      ∃ events, Grows o.container events (o.turn feed turn).container := by
  cases turn with
  | take => exact ContainerStep.grows_step hSound (.receive feed)
  | other step => exact ContainerStep.grows_step hSound step

/-- What a run keeps: the container grows by what is published, and the feed is on its track. -/
theorem onTrack_run (hSound : o.container.Sound) (h : OnTrack feed initial start o)
    {turns : List Turn} (hTurns : ∀ turn ∈ turns, turn.Spares feed) :
    OnTrack feed initial start (o.run feed turns) ∧ (o.run feed turns).container.Sound ∧
      ∃ events, Grows o.container events (o.run feed turns).container := by
  induction turns generalizing o with
  | nil => exact ⟨h, hSound, [], .refl _⟩
  | cons turn turns ih =>
    obtain ⟨hTurn, hRest⟩ := List.forall_mem_cons.1 hTurns
    obtain ⟨hSound', first, hFirst⟩ := grows_turn feed hSound turn
    obtain ⟨hTrack, hEnd, rest, hGrows⟩ := ih hSound' (onTrack_turn hSound h hTurn) hRest
    exact ⟨hTrack, hEnd, first ++ rest, hFirst.trans hGrows⟩

end Observation

def MemoryContainer.openedFeed (options : ListOptions) (c : MemoryContainer) : Nat :=
  ((openFeed options).run c).1

def Observation.opened (options : ListOptions) (c : MemoryContainer) : Observation :=
  ⟨((MemoryContainer.openFeed options).run c).2, []⟩

theorem Observation.onTrack_opened {options : ListOptions}
    (hInitial : options.sendInitialEvents = true) {c : MemoryContainer} (hSound : c.Sound) :
    OnTrack (c.openedFeed options) (c.entries.values.map .added) c.bus.published
      (opened options c) := by
  have hFollows := ChangeBus.follows_subscribe hSound.numbered (c.entries.values.map .added)
  have hBus : (opened options c).container.bus =
      ((ChangeBus.subscribe (c.entries.values.map Event.added)).run c.bus).2 := by
    simp only [opened, MemoryContainer.openFeed, StateT.run, hInitial, if_true]
    rfl
  rw [← hBus] at hFollows
  exact .inr ⟨_, hFollows⟩

theorem Grows.publishedSince_eq {c c' : MemoryContainer} {live : List (Event Entry)}
    (hGrows : Grows c live c') : c'.bus.publishedSince c.bus.published = live := by
  rw [ChangeBus.publishedSince, hGrows.log]
  exact List.drop_left' (by simp [ChangeBus.published])

/-- What is published after a state goes beyond the versions of its entries. -/
theorem MemoryContainer.Sound.precedes_live {c c' : MemoryContainer} (hSound : c.Sound)
    {live : List (Event Entry)} (hGrows : Grows c live c') :
    ∀ e ∈ c.entries.values.map Event.added, ∀ e' ∈ live, Precedes e e' := by
  intro e hMem e' hLive
  obtain ⟨entry, hEntry, rfl⟩ := List.mem_map.1 hMem
  obtain ⟨name, hStored⟩ := SortedMap.mem_values.1 hEntry
  obtain ⟨n, hVersion, hLe⟩ := hSound.versioned name entry hStored
  obtain ⟨m, hStamp, -, hOrder⟩ := hGrows.stamped e' hLive
  refine ⟨n, m, congrArg some hVersion, hStamp, ?_⟩
  cases hOut : e'.isOutOfBand <;>
    simp only [hOut, Bool.false_eq_true, if_false, if_true] at hOrder ⊢ <;> omega

/-- Let a container be written to in any way, and let a feed be opened then that begins with an
event for each entry.  Whatever happens from then on to the container and to its other feeds, the
feed gives the events of one sequence in order, unless it falls behind: first the entries that there
were, then what is published, until nothing is pending.  The sequence, replayed from nothing, gives
the entries of the container at the end, every event of it fits, and its versions rise.  A write
that fails changes nothing and publishes nothing. -/
theorem change_feed_faithful (capacity : Nat) (before : List ContainerStep) (options : ListOptions)
    (hInitial : options.sendInitialEvents = true) (turns : List Turn)
    (hSpares : ∀ turn ∈ turns,
      turn.Spares ((ContainerStep.runAll before (.ofCapacity capacity)).openedFeed options)) :
    let c := ContainerStep.runAll before (.ofCapacity capacity)
    let feed := c.openedFeed options
    let o := (Observation.opened options c).run feed turns
    (¬ o.Lags → ∃ initial live, initial = c.entries.values.map .added ∧
      o.container.bus.log.toList = c.bus.log.toList ++ live ∧
      o.events <+: initial ++ live ∧ (o.IsDrained feed → o.events = initial ++ live) ∧
      replay ∅ (initial ++ live) = some o.container.entries ∧
      (∀ e ∈ live, ∃ n : Nat, e.stamp? = some (toString n)) ∧ live.Pairwise Precedes ∧
      ∀ e ∈ initial, ∀ e' ∈ live, Precedes e e') ∧
    ∀ w : ContainerWrite, (∃ e, runOn w.run o.container = (.error e, o.container)) ∨
      ∃ c' e, runOn w.run o.container = (.ok (), c') ∧ c'.bus = o.container.bus.publish e := by
  intro c feed o
  obtain ⟨hSound, -⟩ := ContainerStep.grows_run (MemoryContainer.sound_ofCapacity capacity) before
  have hOpened := Observation.onTrack_opened hInitial hSound
  have hStart : (Observation.opened options c).container.Sound :=
    ⟨hSound.named, hSound.versioned, hSound.numbered.subscribe _⟩
  have hFirst : Grows c [] (Observation.opened options c).container := .of_eq rfl rfl rfl
  obtain ⟨hTrack, hEnd, live, hRest⟩ := Observation.onTrack_run hStart hOpened hSpares
  have hGrows : Grows c live o.container := hFirst.trans hRest
  refine ⟨fun hLags => ?_, fun w => ?_⟩
  · rcases hTrack with hBehind | ⟨cursor, hFollows⟩
    · exact absurd hBehind hLags
    · have hSequence := hFollows.sequence
      rw [hGrows.publishedSince_eq] at hSequence
      refine ⟨_, live, rfl, hGrows.log, ⟨_, hSequence⟩, fun hDrained => ?_, ?_, ?_, hGrows.ordered,
        hSound.precedes_live hGrows⟩
      · rw [← hGrows.publishedSince_eq]
        exact hFollows.eq_of_pending hDrained
      · rw [replay_append, replay_values hSound.named, Option.bind_some, hGrows.replays]
      · intro e hMem
        obtain ⟨n, hStamp, -⟩ := hGrows.stamped e hMem
        exact ⟨n, hStamp⟩
  · have hOutcome := ContainerWrite.outcome_run hEnd w
    generalize runOn w.run o.container = outcome at hOutcome
    cases hOutcome with
    | failed e => exact .inl ⟨e, rfl⟩
    | published c' e hBus => exact .inr ⟨c', e, rfl, hBus⟩

def ContainerStep.early : List ContainerStep :=
  let birth : Birth := ⟨"1", ⟨0, 0⟩⟩
  [.write (.create birth "a" [1]), .write (.create birth "b" []), .write (.patch "a" [2])]

def MemoryContainer.small : MemoryContainer :=
  ContainerStep.runAll ContainerStep.early (.ofCapacity 2)

/-- Writes, one of which fails, a bookmark and another feed between the takes of a feed. -/
def Turn.mixed : List Turn :=
  [.take, .other (.write (.delete "a")), .other (.write (.patch "a" [3])), .take,
    .other (.write .bookmark), .other (.watch {}), .take, .other (.receive 1), .take]

theorem change_feed_faithful_mixed :
    let options : ListOptions := { sendInitialEvents := true }
    let o := (Observation.opened options .small).run 0 Turn.mixed
    options.sendInitialEvents = true ∧ (∀ turn ∈ Turn.mixed, turn.Spares 0) ∧
    ¬ o.Lags ∧ o.IsDrained 0 ∧ o.container.entries.keys = ["b"] ∧
    replay ∅ o.events = some o.container.entries := by
  have hSpares : ∀ turn ∈ Turn.mixed, turn.Spares 0 := by
    simp only [Turn.mixed, List.forall_mem_cons]
    exact ⟨.take, .write _, .write _, .take, .write _, .watch _, .take, .receive (by decide), .take,
      List.forall_mem_nil _⟩
  have hLags : ¬ ((Observation.opened { sendInitialEvents := true } .small).run 0
      Turn.mixed).Lags := by
    unfold Observation.Lags
    decide +kernel
  have hDrained : ((Observation.opened { sendInitialEvents := true } .small).run 0
      Turn.mixed).IsDrained 0 := by
    unfold Observation.IsDrained
    decide +kernel
  obtain ⟨initial, live, -, -, -, hEvents, hReplay, -⟩ := (change_feed_faithful 2
    ContainerStep.early { sendInitialEvents := true } rfl Turn.mixed hSpares).1 hLags
  have hAll : ((Observation.opened { sendInitialEvents := true } .small).run 0
      Turn.mixed).events = initial ++ live := hEvents hDrained
  refine ⟨rfl, hSpares, hLags, hDrained, by decide +kernel, ?_⟩
  rw [hAll]
  exact hReplay

end Tenancy
