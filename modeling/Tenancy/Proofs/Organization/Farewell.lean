import Tenancy.Proofs.Organization.Founding
import Tenancy.Proofs.Store.FilteredWatch

/-!
# Who is told that an organization is gone

A deletion removes the organization, which publishes the event, and then takes away its owner
grants.  A watch asks whether its actor may see the event when it handles it, and that is after the
call.  So the event comes to those who may see the organization without its owner grants, and it
does not come to those who could see it by these grants only.

* `ApiState.becomes_write`: calls go on around an open watch.
* `deletion_told_by_remaining_grants`: what a watch that has waited for the call gives on.
-/

namespace Tenancy

/-! ## Calls around an open watch -/

namespace MemoryContainer.Becomes

variable {c c' c'' : MemoryContainer} {feed : Nat} {name : String}

theorem trans (h : c.Becomes feed c') (h' : c'.Becomes feed c'') : c.Becomes feed c'' := by
  obtain ⟨steps, hSpares, rfl⟩ := h
  obtain ⟨more, hMore, rfl⟩ := h'
  exact ⟨steps ++ more, List.forall_mem_append.2 ⟨hSpares, hMore⟩, List.foldl_append.symm⟩

theorem write (w : ContainerWrite) : c.Becomes feed (runOn w.run c).2 :=
  ⟨[.write w], List.forall_mem_singleton.2 (.write w), rfl⟩

theorem create (birth : Birth) (bytes : Bytes) (hAbsent : c.entries.get? name = none) :
    c.Becomes feed (c.afterCreate birth name bytes) := by
  have hWrite : c.Becomes feed _ := write (.create birth name bytes)
  rwa [ContainerWrite.run, bind_pure_comp, runOn_map, runOn_create,
    SortedMap.contains_eq_false_iff.2 hAbsent] at hWrite

theorem patch (bytes : Bytes) {old : Entry} (hStored : c.entries.get? name = some old) :
    c.Becomes feed (c.afterPatch name old bytes) := by
  have hWrite : c.Becomes feed _ := write (.patch name bytes)
  rwa [ContainerWrite.run, bind_pure_comp, runOn_map, runOn_patch, hStored] at hWrite

theorem delete {old : Entry} (hStored : c.entries.get? name = some old) :
    c.Becomes feed (c.afterDelete name old) := by
  have hWrite : c.Becomes feed _ := write (.delete name)
  rwa [ContainerWrite.run, bind_pure_comp, runOn_map, runOn_delete, hStored] at hWrite

end MemoryContainer.Becomes

theorem BlobStore.becomes_delete {σ α : Type} {s : BlobStore (StateM σ) α}
    {p : Part σ MemoryContainer} (hContainer : s.container = MemoryContainer.container p.cell)
    (name : String) (feed : Nat) (st : σ) :
    (p.read st).Becomes feed (p.read (runOn (s.delete name) st).2) := by
  have hOutcome := delete_outcome hContainer name st
  generalize runOn (s.delete name) st = outcome at hOutcome
  cases hOutcome with
  | refused e => exact .refl feed _
  | removed old was hStored =>
    rw [p.read_write]
    exact .delete hStored

/-- A watch shows the removal of what could be read with the version of the removal. -/
theorem BlobStore.shown_removed {m : Type → Type} [Monad m] {α : Type} {s : BlobStore m α}
    {old : Entry} {r : Resource α} (hRead : s.read old = .ok r) (c : MemoryContainer) :
    s.shown (.deleted (c.removedEntry old)) =
      .deleted { r with metadata := { r.metadata with version := some c.nextVersion } } := by
  obtain ⟨payload, hDecoded, rfl⟩ := read_eq_ok_iff.1 hRead
  have hRemoved : s.read (c.removedEntry old) = .ok _ :=
    read_eq_ok_iff.2 ⟨payload, hDecoded, rfl⟩
  rw [shown, Event.mapM, hRemoved]
  rfl

namespace ApiState

variable (config : StoreConfig) (call : Call)

/-- A deletion that succeeds removes the organization and takes away its owner grants. -/
theorem runOn_delete_of_ok {config : StoreConfig} {call : Call} {name : String} {st st' : ApiState}
    {r : Resource Organization} {removed : Bool}
    (hRun : runOn ((ResourceApi.inMemory config).organizations.delete call name) st =
      (.ok (r, removed), st')) :
    ∃ old, st.organizations.get? name = some old ∧ (organizationStore config).read old = .ok r ∧
      st'.grants = st.grants.withoutOwner .organization r.name ∧
      (container .organization).read st' =
        ((container .organization).read st).afterDelete name old := by
  have hInner : (organizationStore config).DeleteOutcome (container .organization) name st
      (runOn ((organizationStore config).store.delete call name) st) :=
    BlobStore.delete_outcome rfl name st
  have hGuarded := Store.authorized_delete (GrantTable.isPassive_authorizer table)
    ((organizationStore config).store.provisioned (ownerEffects table .organization))
    config.watchBufferSize call name st
  rw [← inMemory_organizations, hRun] at hGuarded
  generalize hEnd : (Except.ok (r, removed), st') = ending at hGuarded
  cases hGuarded with
  | refused e => cases hEnd
  | passed =>
    simp only [Store.provisioned, runOn_bind] at hEnd
    revert hInner hEnd
    generalize runOn ((organizationStore config).store.delete call name) st = inner
    rintro (e | ⟨old, was, hStored, hWas⟩) hEnd
    · cases hEnd
    · simp only [runOn_lift, Store.undo_owner, runOn_pure, Prod.mk.injEq, Except.ok.injEq] at hEnd
      obtain ⟨⟨rfl, -⟩, rfl⟩ := hEnd
      exact ⟨old, hStored, hWas, rfl, rfl⟩

/-- A write whose payloads are read back. -/
theorem becomes_write {w : Write ApiState Organization} (hStores : w.Stores Readable) (feed : Nat)
    (st : ApiState) :
    ((container .organization).read st).Becomes feed ((container .organization).read
      (runOn (w.run (ResourceApi.inMemory config).organizations call) st).2) := by
  have hInner := BlobStore.write_outcome (s := organizationStore config)
    (p := container .organization) rfl hStores call st
  have hGuarded := Store.authorized_write (GrantTable.isPassive_authorizer table) w
    ((organizationStore config).store.provisioned (ownerEffects table .organization))
    config.watchBufferSize call st
  rw [inMemory_organizations]
  revert hGuarded
  generalize runOn (w.run (Store.authorized _ _ _) call) st = outcome
  rintro (e | _)
  · exact .refl feed _
  · rw [Store.run_provisioned]
    revert hInner
    generalize runOn (w.run (organizationStore config).store call) st = inner
    rintro (e | ⟨name, old, payload, bytes, hStored⟩ | ⟨name, payload, bytes, hAbsent, hRead⟩)
    · exact .refl feed _
    · rw [Part.read_write]
      exact .patch bytes hStored
    · dsimp only
      have hCreated : ((container .organization).read st).Becomes feed _ :=
        .create call.birth bytes hAbsent
      -- what has been stored stays, or is taken out again
      rcases Store.provision_owner table .organization call
        ⟨BlobStore.metadataOf (((container .organization).read st).newEntry call.birth name bytes),
          payload⟩ ((container .organization).write
            (((container .organization).read st).afterCreate call.birth name bytes) st)
        (organizationStore config).store with ⟨-, -, hRun⟩ | ⟨e, hRun⟩
      · rw [hRun]
        exact hCreated
      · rw [hRun]
        refine hCreated.trans ?_
        exact BlobStore.becomes_delete rfl name feed _

/-! ## Watches of organizations -/

/-- What a watch of organizations goes by: the grants, and the events that have been published. -/
def told (st : ApiState) : GrantTable × Array (Event Entry) :=
  (st.grants, (st.containers .organization).bus.log)

theorem told_write_container (c : MemoryContainer) (st : ApiState) :
    ((container .organization).write c st).told = (st.grants, c.bus.log) := rfl

theorem told_afterTake (feed : Nat) (st : ApiState) :
    (afterTake (container .organization) feed st).told = st.told := by
  rw [afterTake, told_write_container, told]
  exact congrArg _ (ChangeBus.log_receive _ feed)

theorem told_afterCancel (feed : Nat) (st : ApiState) :
    (afterCancel (container .organization) feed st).told = st.told := rfl

def mayGet (actor : Actor) : Event (Resource Organization) → StateM ApiState Bool :=
  Store.maySeeEvent (GrantTable.authorizer table.cell) actor .organization

variable {config call}

theorem run_mayGet (actor : Actor) (e : Event (Resource Organization)) (st : ApiState) :
    (mayGet actor e).run st = (match e.object? with
      | some r => (st.grants.decide (.forName actor .get .organization r.name)).isAllowed
      | none => true, st) := by
  rw [mayGet, Store.maySeeEvent]
  cases e.object? with
  | none => rfl
  | some r => rfl

theorem read_mayGet {α : Type} (p : Part ApiState α) (actor : Actor)
    (e : Event (Resource Organization)) (st : ApiState) :
    p.read ((mayGet actor e).run st).2 = p.read st := by
  rw [run_mayGet]

/-- An event about an organization passes if its actor may get the organization. -/
theorem passed_mayGet (actor : Actor) {e : Event (Resource Organization)}
    {r : Resource Organization} {name : String} (hObject : e.object? = some r)
    (hName : r.name = name) (st : ApiState) :
    passed (mayGet actor) [(e, st)] =
      if st.grants.decide (.forName actor .get .organization name) = .allow then [e] else [] := by
  subst hName
  rw [passed_single, run_mayGet, hObject]
  refine if_congr ?_ rfl rfl
  dsimp only
  cases st.grants.decide (.forName actor .get .organization r.name) with
  | allow => exact iff_of_true rfl rfl
  | deny reason => exact iff_of_false Bool.false_ne_true fun hAllow => by cases hAllow

def openedWatch (config : StoreConfig) (actor : Actor) (options : ListOptions) (st : ApiState) :
    Watch (StateM ApiState) (Resource Organization) :=
  let feed := ((container .organization).read st).openedFeed options
  .filtered (.relayed ((organizationStore config).feedSource (container .organization) feed)
    (.ofCapacity config.watchBufferSize)) (mayGet actor) (.ofCapacity config.watchBufferSize)

theorem runOn_watch (config : StoreConfig) (call : Call) (options : ListOptions) (st : ApiState) :
    runOn ((ResourceApi.inMemory config).organizations.watch call options) st =
      match st.grants.decide (.forCollection call.actor .watch .organization) with
      | .allow => (.ok (openedWatch config call.actor options st), (container .organization).write
          ((ContainerStep.watch options).run ((container .organization).read st)) st)
      | .deny reason => (.error (.forbidden reason), st) := by
  have hGuarded : runOn ((((organizationStore config).store.provisioned
      (ownerEffects table .organization)).authorized (GrantTable.authorizer table.cell)
        config.watchBufferSize).watch call options) st = _ :=
    Store.runOn_guarded rfl .organization call none _ st
  have hAnswer : runOn (GrantTable.authorizer table.cell
      (Store.question .organization call .watch none)) st =
      (.ok (st.grants.decide (.forCollection call.actor .watch .organization)), st) := rfl
  have hBelow : runOn (((organizationStore config).store.provisioned
      (ownerEffects table .organization)).watch call options) st = _ :=
    BlobStore.runOn_watch (s := organizationStore config) (p := container .organization) rfl rfl
      options st
  rw [inMemory_organizations, hGuarded, hAnswer]
  cases st.grants.decide (.forCollection call.actor .watch .organization) with
  | deny reason => rfl
  | allow =>
    dsimp only
    rw [runOn_bind, hBelow]
    rfl

/-- A watch of organizations is one of their container behind the test of its actor. -/
theorem attends_opened {options : ListOptions} {st st' : ApiState}
    {w : Watch (StateM ApiState) (Resource Organization)}
    (hSound : ((container .organization).read st).Sound)
    (hOpened : runOn ((ResourceApi.inMemory config).organizations.watch call options) st =
      (.ok w, st')) :
    let c := (container .organization).read st
    Attends (organizationStore config) (container .organization) (c.openedFeed options)
      (c.initialEvents options) c.bus.published (mayGet call.actor) [] (⟨w, []⟩, st') := by
  intro c
  rw [runOn_watch] at hOpened
  split at hOpened
  · obtain ⟨hWatch, rfl⟩ := Prod.mk.inj hOpened
    obtain rfl := Except.ok.inj hWatch
    obtain ⟨inner, t, hBelow, hWatching⟩ := isWatching_opened (s := organizationStore config)
      (p := container .organization) rfl rfl options st hSound
    rw [BlobStore.runOn_watch (p := container .organization) rfl rfl] at hBelow
    obtain ⟨hInner, rfl⟩ := Prod.mk.inj hBelow
    obtain rfl := Except.ok.inj hInner
    exact ⟨_, _, rfl, .opened _ _ _, hWatching _⟩
  · cases hOpened

end ApiState

/-- The turn publishes no event of organizations and leaves the grants alone: it is a step of the
watch itself, of another watch, or of anything else that is not a call. -/
def FeedTurn.IsTask (feed : Nat) (turn : FeedTurn ApiState) : Prop :=
  turn.Spares (ApiState.container .organization) feed ∧ turn.Keeps ApiState.told

theorem FeedTurn.isTask_watch (feed : Nat) {moves : List WatchMove} {task : FeedTurn ApiState}
    (hMem : task ∈ moves.map .watch) : task.IsTask feed := by
  obtain ⟨move, -, rfl⟩ := List.mem_map.1 hMem
  exact ⟨trivial, trivial⟩

/-- A watch of organizations has waited, and one event is published.  When the watch waits again, it
has given on the event, if it passes by the grants that there were when it was published. -/
theorem ApiState.tells_one {config : StoreConfig} {actor : Actor} {feed start : Nat}
    {initial : List (Event Entry)} {handled : List (Event (Resource Organization) × ApiState)}
    {now : Watching ApiState (Resource Organization) × ApiState} {st : ApiState} {e : Event Entry}
    (hAttends : Attends (organizationStore config) (container .organization) feed initial start
      (mayGet actor) handled now)
    (hWaits : now.1.watch.Waits now.2)
    (hBecomes : ((container .organization).read now.2).Becomes feed
      ((container .organization).read st))
    (hBus : ((container .organization).read st).bus =
      ((container .organization).read now.2).bus.publish e)
    {tasks : List (FeedTurn ApiState)} (hTasks : ∀ task ∈ tasks, task.IsTask feed) :
    let later := FeedTurn.runAll tasks (now.1, st)
    later.1.watch.Waits later.2 →
      later.1.received ++ later.1.watch.relay.channel.queue =
        now.1.received ++ now.1.watch.relay.channel.queue ++
          passed (mayGet actor) [((organizationStore config).shown e, st)] := by
  intro later hRest
  have hLog : ((container .organization).read st).bus.log.toList =
      ((container .organization).read now.2).bus.log.toList ++ [e] := by
    rw [hBus, ChangeBus.publish, Array.toList_push]
  have hView : ∀ st st' : ApiState, st.told = st'.told →
      ((container .organization).read st).bus.log =
        ((container .organization).read st').bus.log := fun _ _ => congrArg Prod.snd
  have hPassive : ∀ e st, told ((mayGet actor e).run st).2 = told st := fun e st => by
    rw [run_mayGet]
  have hWatch := hAttends.respects (x := st.told) (told_afterTake feed) (told_afterCancel feed)
    hPassive
  obtain ⟨new, hNew, hStates, hGiven⟩ := hAttends.passes_on (read_mayGet _ actor) hWaits hBecomes
    hLog hView hWatch hTasks hRest
  obtain ⟨⟨shown, s⟩, rfl, rfl⟩ := List.map_eq_singleton_iff.1 hNew
  have hGrants : s.grants = st.grants := congrArg Prod.fst (hStates _ (List.mem_singleton_self _))
  rw [hGiven, passed_single, passed_single, run_mayGet, run_mayGet, hGrants]

/-- Let a watch of organizations be opened for an actor, however the container has been written to,
and let it make moves while calls are made, other watches run and grants change, in any order.  When
every relay of the watch waits, so that it has neither fallen behind nor filled up nor ended, let an
organization be deleted.  The deletion takes the owner grants of the organization away, and only
then the event is checked.  If the actor may get the organization by the grants that remain, the
consumer can receive the event after all that there was to receive before, and otherwise there is
nothing more for it; and this is what the watch has given, whatever else runs, whenever every relay
waits again before the next call. -/
theorem deletion_told_by_remaining_grants (config : StoreConfig) (capacity : Nat)
    (history : List ContainerStep) (st st₁ st₂ : ApiState)
    (hHistory : st.containers .organization = ContainerStep.runAll history (.ofCapacity capacity))
    (watcher : Call) (options : ListOptions)
    (w : Watch (StateM ApiState) (Resource Organization))
    (hOpened : runOn ((ResourceApi.inMemory config).organizations.watch watcher options) st =
      (.ok w, st₁))
    (turns : List (FeedTurn ApiState))
    (hSpares : ∀ turn ∈ turns, turn.Spares (ApiState.container .organization)
      ((st.containers .organization).openedFeed options))
    (before : Watching ApiState (Resource Organization) × ApiState)
    (hBefore : before = FeedTurn.runAll turns (⟨w, []⟩, st₁))
    (hWaits : before.1.watch.Waits before.2) (deleter : Call) (name : String)
    (r : Resource Organization) (removed : Bool)
    (hDeleted : runOn ((ResourceApi.inMemory config).organizations.delete deleter name) before.2 =
      (.ok (r, removed), st₂)) :
    let feed := (st.containers .organization).openedFeed options
    let version := (before.2.containers .organization).nextVersion
    let gone : Event (Resource Organization) :=
      .deleted { r with metadata := { r.metadata with version := some version } }
    let remaining := before.2.grants.withoutOwner .organization name
    let told := if remaining.decide (.forName watcher.actor .get .organization name) = .allow then
      [gone] else []
    st₂.grants = remaining ∧
    (∃ moves : List WatchMove, (∀ move ∈ moves, move.ends = false) ∧
      (Watching.moveAll moves (before.1, st₂)).1.received =
        before.1.received ++ before.1.watch.relay.channel.queue ++ told) ∧
    ∀ tasks : List (FeedTurn ApiState), (∀ task ∈ tasks, task.IsTask feed) →
      let after := FeedTurn.runAll tasks (before.1, st₂)
      after.1.watch.Waits after.2 →
        after.1.received ++ after.1.watch.relay.channel.queue =
          before.1.received ++ before.1.watch.relay.channel.queue ++ told := by
  intro feed version gone remaining told
  have hSound : ((ApiState.container .organization).read st).Sound := by
    have hRead : (ApiState.container .organization).read st = _ := hHistory
    rw [hRead]
    exact (ContainerStep.grows_run (MemoryContainer.sound_ofCapacity capacity) history).1
  have hTest := ApiState.read_mayGet (ApiState.container .organization) watcher.actor
  have hAttends := (ApiState.attends_opened hSound hOpened).run hTest hSpares
  rw [← hBefore] at hAttends
  obtain ⟨old, hStored, hRead, hGrants, hAfter⟩ := ApiState.runOn_delete_of_ok hDeleted
  have hName : r.name = name := by
    obtain ⟨_, _, _, _, hWatching⟩ := hAttends
    exact (BlobStore.read_name hRead).trans (hWatching.sound.named name old hStored)
  rw [hName] at hGrants
  have hBus : ((ApiState.container .organization).read st₂).bus =
      ((ApiState.container .organization).read before.2).bus.publish
        (.deleted (((ApiState.container .organization).read before.2).removedEntry old)) := by
    rw [hAfter]
    rfl
  have hTells : ∀ tasks : List (FeedTurn ApiState), (∀ task ∈ tasks, task.IsTask feed) →
      let after := FeedTurn.runAll tasks (before.1, st₂)
      after.1.watch.Waits after.2 →
        after.1.received ++ after.1.watch.relay.channel.queue =
          before.1.received ++ before.1.watch.relay.channel.queue ++ told := by
    intro tasks hTasks after hRest
    have hBecomes : ((ApiState.container .organization).read before.2).Becomes feed
        ((ApiState.container .organization).read st₂) := by
      rw [hAfter]
      exact .delete hStored
    have hShown : (ApiState.organizationStore config).shown (.deleted
        (((ApiState.container .organization).read before.2).removedEntry old)) = gone :=
      BlobStore.shown_removed hRead _
    have hGone : passed (ApiState.mayGet watcher.actor) [(gone, st₂)] = told := by
      rw [ApiState.passed_mayGet watcher.actor (show gone.object? = some _ from rfl) hName, hGrants]
    rw [ApiState.tells_one hAttends hWaits hBecomes hBus hTasks hRest, hShown, hGone]
  -- a run of the watch alone comes to rest, and it is such a run
  obtain ⟨moves, hMoves, hRest, hEmpty⟩ := hAttends.settles hTest hWaits hBus
  rw [← FeedTurn.runAll_watch] at hRest hEmpty
  have hAll := hTells _ (fun task hMem => FeedTurn.isTask_watch feed hMem) hRest
  rw [hEmpty, List.append_nil, FeedTurn.runAll_watch] at hAll
  exact ⟨hGrants, ⟨moves, hMoves, hAll⟩, hTells⟩

/-! ## One who is told and one who is not -/

/-- A table in which "alice" may create organizations and watch them, and the members of "audit" may
see all of them. -/
def GrantTable.staffed : GrantTable where
  roles := .ofList
    [("auditor", ⟨"auditor", .ofList [.global .organization .get, .global .organization .watch],
      ⟨0, 0⟩⟩),
    ("member", ⟨"member", .ofList [.global .organization .create, .global .organization .watch],
      ⟨0, 0⟩⟩)]
  bindings := .ofList [("alice", ⟨"alice", "member", "alice", ⟨0, 0⟩⟩),
    ("audit", ⟨"audit", "auditor", "group:audit", ⟨0, 0⟩⟩)]
  superusers := []

def Call.byAlice : Call := ⟨⟨"alice", []⟩, ⟨0, 0⟩, "1", "abcde"⟩

def ApiState.founding (st : ApiState) : ApiState :=
  (runOn (Write.acme.run (ResourceApi.inMemory {}).organizations .byAlice) st).2

/-- The moves by which one event comes through a watch. -/
def WatchMove.round : List WatchMove :=
  [.relay 0, .relay 0, .relay 0, .relay 1, .relay 1, .relay 1, .receive]

def Call.byAuditor : Call := ⟨⟨"bob", ["audit"]⟩, ⟨0, 0⟩, "2", "abcde"⟩

/-- What happens until an open watch has seen the creation of "acme". -/
def FeedTurn.founding : List (FeedTurn ApiState) :=
  .elsewhere ApiState.founding :: WatchMove.round.map .watch

/-- The watch of the auditor, opened before "acme" is created, when "acme" has come through. -/
def Watching.ofAuditor : Watching ApiState (Resource Organization) × ApiState :=
  FeedTurn.runAll FeedTurn.founding
    (⟨ApiState.openedWatch {} Call.byAuditor.actor {} (.fresh {} .staffed), []⟩,
      (runOn ((ResourceApi.inMemory {}).organizations.watch .byAuditor {}) (.fresh {} .staffed)).2)

set_option maxRecDepth 2000 in
theorem deletion_told_by_remaining_grants_auditor :
    let api := (ResourceApi.inMemory {}).organizations
    let before := Watching.ofAuditor
    let deleted := runOn (api.delete .byAlice "acme") before.2
    before.1.watch.Waits before.2 ∧ before.1.received.map (·.type) = [.added] ∧
    problem? deleted.1 = none ∧
    ∃ moves : List WatchMove, (∀ move ∈ moves, move.ends = false) ∧
      (Watching.moveAll moves (before.1, deleted.2)).1.received.map (·.type) =
        [.added, .deleted] := by
  have hOpened : runOn ((ResourceApi.inMemory {}).organizations.watch .byAuditor {})
      (.fresh {} .staffed) = (.ok (ApiState.openedWatch {} Call.byAuditor.actor {}
        (.fresh {} .staffed)), (runOn ((ResourceApi.inMemory {}).organizations.watch .byAuditor {})
          (.fresh {} .staffed)).2) := by
    have hAllowed : (ApiState.fresh {} .staffed).grants.decide
        (.forCollection Call.byAuditor.actor .watch .organization) = .allow := by decide +kernel
    rw [ApiState.runOn_watch, hAllowed]
  have hSpares : ∀ turn ∈ FeedTurn.founding,
      turn.Spares (ApiState.container .organization) 0 := by
    refine List.forall_mem_cons.2 ⟨fun st => ?_, fun turn hMem => (FeedTurn.isTask_watch 0 hMem).1⟩
    refine ApiState.becomes_write {} .byAlice (.create _ ?_) 0 st
    rintro bytes ⟨⟩
    rfl
  have hWaits : Watching.ofAuditor.1.watch.Waits Watching.ofAuditor.2 := by decide +kernel
  have hSeen : Watching.ofAuditor.1.received.map (·.type) = [.added] := by decide +kernel
  have hDeletes : problem? (runOn ((ResourceApi.inMemory {}).organizations.delete .byAlice "acme")
      Watching.ofAuditor.2).1 = none := by decide +kernel
  refine ⟨hWaits, hSeen, hDeletes, ?_⟩
  rcases hDeleted : runOn ((ResourceApi.inMemory {}).organizations.delete .byAlice "acme")
    Watching.ofAuditor.2 with ⟨e | ⟨r, removed⟩, st₂⟩
  · rw [hDeleted] at hDeletes
    cases hDeletes
  · obtain ⟨-, ⟨moves, hMoves, hReceived⟩, -⟩ := deletion_told_by_remaining_grants {} _ []
      (.fresh {} .staffed) _ st₂ rfl .byAuditor {} _ hOpened FeedTurn.founding hSpares
      Watching.ofAuditor rfl hWaits .byAlice "acme" r removed hDeleted
    have hRemains : (Watching.ofAuditor.2.grants.withoutOwner .organization "acme").decide
        (.forName Call.byAuditor.actor .get .organization "acme") = .allow := by decide +kernel
    have hEmpty : Watching.ofAuditor.1.watch.relay.channel.queue.map (·.type) = [] := by
      decide +kernel
    refine ⟨moves, hMoves, ?_⟩
    rw [hReceived, if_pos hRemains, List.map_append, List.map_append, hSeen, hEmpty]
    rfl

/-- Only the owner grants of "acme" let "alice" see it. -/
theorem deletion_untold_to_owner :
    let api := (ResourceApi.inMemory {}).organizations
    let st := ApiState.founding (.fresh {} .staffed)
    let w := ApiState.openedWatch {} Call.byAlice.actor { sendInitialEvents := true } st
    let opened := runOn (api.watch .byAlice { sendInitialEvents := true }) st
    let before := Watching.moveAll WatchMove.round (⟨w, []⟩, opened.2)
    let deleted := runOn (api.delete .byAlice "acme") before.2
    let after := Watching.moveAll WatchMove.round (before.1, deleted.2)
    opened.1 = .ok w ∧
    before.1.watch.Waits before.2 ∧ before.1.received.map (·.type) = [.added] ∧
    before.2.grants.decide (.forName Call.byAlice.actor .get .organization "acme") = .allow ∧
    problem? deleted.1 = none ∧ after.1.watch.Waits after.2 ∧
    after.1.watch.relay.channel.queue.isEmpty = true ∧
    after.1.received.map (·.type) = [.added] := by
  refine ⟨?_, by decide +kernel, by decide +kernel, by decide +kernel, by decide +kernel,
    by decide +kernel, by decide +kernel, by decide +kernel⟩
  have hAllowed : (ApiState.founding (.fresh {} .staffed)).grants.decide
      (.forCollection Call.byAlice.actor .watch .organization) = .allow := by decide +kernel
  rw [ApiState.runOn_watch, hAllowed]

end Tenancy
