import Tenancy.Proofs.Feed.Screening
import Tenancy.Proofs.Store.Visibility
import Tenancy.Proofs.Store.WatchStream

/-!
# What is shown behind an authorizer

Behind an authorizer a watch goes through a filter that asks about every object event when it
handles it, and a list asks about every item of its page.  The authorizer may answer differently
each time.

* `filtered_watch_shows_what_was_allowed`: the filter of a watch leaves out the events that the
  actor may not see when they are handled, and nothing else.
* `list_hides_all_but_page_end`: a list shows no item that the actor may not see, but its token is
  that of the unfiltered page, and it tells the name of the last entry.
-/

namespace Tenancy

variable {σ α : Type}

/-! ## Watches -/

section

variable {authorizer : Authorizer (StateM σ)} {actor : Actor} {collection : Collection}

/-- The actor gets to see the event if it is handled in the state: it is about no object, or about
one that the actor may see then. -/
def Authorizer.showsEvent (authorizer : Authorizer (StateM σ)) (actor : Actor)
    (collection : Collection) (h : Event (Resource α) × σ) : Bool :=
  match h.1.object? with
  | some r => authorizer.sees h.2 actor collection r.name
  | none => true

theorem Authorizer.allows_of_showsEvent {h : Event (Resource α) × σ}
    (hShown : authorizer.showsEvent actor collection h = true) {r : Resource α}
    (hObject : h.1.object? = some r) :
    authorizer.Allows h.2 (.forName actor .get collection r.name) := by
  rw [showsEvent, hObject] at hShown
  exact sees_iff.1 hShown

theorem Store.passed_maySeeEvent (handled : List (Event (Resource α) × σ)) :
    passed (maySeeEvent authorizer actor collection) handled =
      (handled.filter (authorizer.showsEvent actor collection)).map Prod.fst := by
  refine congrArg _ (List.filter_congr fun h _ => ?_)
  rw [maySeeEvent, Authorizer.showsEvent]
  cases h.1.object? with
  | none => rfl
  | some r => exact congrArg Prod.fst (Authorizer.run_maySee r.name)

end

/-- What the filter of an actor has shown after a run. -/
theorem FilterRun.shows {authorizer : Authorizer (StateM σ)} {actor : Actor}
    {collection : Collection} {upstream : Watch (StateM σ) (Resource α)}
    {turns : List (FeedTurn σ)} {handled : List (Event (Resource α) × σ)} {st : σ}
    {now : Watching σ (Resource α) × σ}
    (h : FilterRun (Store.maySeeEvent authorizer actor collection) [] upstream st turns handled
      now) :
    let test := Store.maySeeEvent authorizer actor collection
    let shown := (handled.filter (authorizer.showsEvent actor collection)).map Prod.fst
    let relay := now.1.watch.relay
    (∃ inner before, now.1.watch = .filtered inner test relay ∧
      (∀ b ∈ before, b.IsByFilter test ∨ b ∈ turns) ∧
      FeedTurn.runAll before (⟨upstream, []⟩, st) = (⟨inner, handled.map Prod.fst⟩, now.2)) ∧
    (now.1.received ++ relay.channel.queue).Sublist (handled.map Prod.fst) ∧
    (∀ e ∈ now.1.received, ∀ x, e.object? = some x →
      ∃ s, (e, s) ∈ handled ∧ authorizer.Allows s (.forName actor .get collection x.name)) ∧
    (relay.channel.isOpen = true →
      now.1.received ++ relay.held = shown ∧ Drains now ∧
      (relay.channel.queue = [] → (now.1.watch.step.run now.2).1.1 = false →
        now.1.received = shown)) := by
  obtain ⟨inner, r, received, st', before, hScreens, hBefore, hConsumes⟩ := h
  intro test shown relay
  rw [List.nil_append] at hScreens
  have hShown : passed test handled = shown := Store.passed_maySeeEvent handled
  have hGiven : received ++ r.channel.queue <+: shown := hShown ▸ hScreens.given
  refine ⟨⟨inner, before, rfl, hBefore, hConsumes []⟩, ?_, fun e hMem x hObject => ?_,
    fun hOpen => ⟨(hScreens.all hOpen).trans hShown, hScreens.drains hOpen st', ?_⟩⟩
  · exact hGiven.sublist.trans (hShown ▸ passed_sublist)
  · have hPassed : e ∈ shown := hGiven.subset (List.mem_append_left _ hMem)
    obtain ⟨⟨e', s⟩, hHandled, rfl⟩ := List.mem_map.1 hPassed
    obtain ⟨hMem, hShows⟩ := List.mem_filter.1 hHandled
    exact ⟨s, hMem, Authorizer.allows_of_showsEvent hShows hObject⟩
  · exact fun hEmpty hWaits => (hScreens.complete hOpen hEmpty hWaits).1.trans hShown

/-- Let a filter for an actor be put behind any watch, and let the relays of the watch, the filter
and its consumer make moves in any order, while the state changes in any way.  The filter receives
the events of the watch as its consumer and handles each in one state.  What the consumer has
received is a part of these events in their order, and the authorizer allowed the actor to get each
object that it is shown, in the state in which the event was handled.  As long as the consumer does
not end the watch, what it has received and what the filter holds are all events but those about
objects that the actor could not see; the consumer can receive all of them, and has done so when the
filter waits with an empty channel.  After a stop it receives at most what the channel held, and
after it has dropped the watch nothing. -/
theorem filtered_watch_shows_what_was_allowed (upstream : Watch (StateM σ) (Resource α))
    (authorizer : Authorizer (StateM σ)) (actor : Actor) (collection : Collection)
    (watchBuffer : Nat) (turns : List (FeedTurn σ)) (st : σ) :
    let test := Store.maySeeEvent authorizer actor collection
    let opened := (⟨.filtered upstream test (.ofCapacity watchBuffer), []⟩, st)
    let received := fun turns => (FeedTurn.runAll turns opened).1.received
    let handled := FeedTurn.handled turns opened
    let shown := (handled.filter (authorizer.showsEvent actor collection)).map Prod.fst
    let now := FeedTurn.runAll turns opened
    let relay := now.1.watch.relay
    (∃ inner before, now.1.watch = .filtered inner test relay ∧
      (∀ b ∈ before, b.IsByFilter test ∨ b ∈ turns) ∧
      FeedTurn.runAll before (⟨upstream, []⟩, st) = (⟨inner, handled.map Prod.fst⟩, now.2)) ∧
    (received turns ++ relay.channel.queue).Sublist (handled.map Prod.fst) ∧
    (∀ e ∈ received turns, ∀ x, e.object? = some x →
      ∃ s, (e, s) ∈ handled ∧ authorizer.Allows s (.forName actor .get collection x.name)) ∧
    ((∀ turn ∈ turns, turn.ends = false) →
      received turns ++ relay.held = shown ∧ Drains now ∧
      (relay.channel.queue = [] → (now.1.watch.step.run now.2).1.1 = false →
        received turns = shown)) ∧
    (∀ later, received (turns ++ .watch .stop :: later) <+: received turns ++ relay.channel.queue) ∧
    ∀ later, received (turns ++ .watch .drop :: later) = received turns := by
  intro test opened received handled shown now relay
  have hRun : FilterRun test [] upstream st turns handled now :=
    (Screens.opened test upstream watchBuffer).run turns st
  obtain ⟨hConsumer, hPart, hAllowed, hAll⟩ := hRun.shows
  refine ⟨hConsumer, hPart, hAllowed, fun hGoesOn => hAll (FeedTurn.isOpen_runAll hGoesOn opened),
    fun later => ?_, fun later => ?_⟩
  · simp only [received, FeedTurn.runAll_append]
    exact FeedTurn.received_after_stop now later
  · simp only [received, FeedTurn.runAll_append]
    exact FeedTurn.received_after_drop now later

/-- Nobody may get "a" once there were three writes, and about "d" there is no decision. -/
def Authorizer.fading : Authorizer (StateM MemoryContainer) := fun q => do
  let c ← getThe MemoryContainer
  if q.coordinates.name = some "d" then throw (.unavailable "down")
  else if q.coordinates.name = some "a" ∧ 3 ≤ c.revision then return .deny "hidden"
  else return .allow

/-- The watch of the feed 0, whose entries cannot be read if they have no bytes. -/
def Watch.ofFeed : Watch (StateM MemoryContainer) (Resource Bytes) :=
  .relayed (BlobStore.narrow.feedSource .whole 0) (.ofCapacity 4)

/-- Everything is written before the relay begins, but the filter has handled the first two events
by the third write. -/
def FeedTurn.fading : List (FeedTurn MemoryContainer) :=
  let write (w : ContainerWrite) : FeedTurn MemoryContainer :=
    .elsewhere (ContainerStep.write w).run
  let relay (level : Nat) : List (FeedTurn MemoryContainer) :=
    List.replicate 4 (.watch (.relay level))
  [.elsewhere (ContainerStep.watch {}).run, write (.create ⟨"1", ⟨0, 0⟩⟩ "a" [1]),
    write (.create ⟨"2", ⟨0, 0⟩⟩ "b" [])] ++ relay 0 ++ relay 1 ++
  [write (.patch "a" [2]), write (.create ⟨"3", ⟨0, 0⟩⟩ "d" [1]), write .bookmark,
    .watch .receive, .watch .receive] ++ relay 0 ++ relay 0 ++ relay 1 ++ relay 1 ++
  [.watch .receive]

theorem filtered_watch_shows_what_was_allowed_fading :
    let actor : Actor := ⟨"eve", []⟩
    let test : Event (Resource Bytes) → StateM MemoryContainer Bool :=
      Store.maySeeEvent Authorizer.fading actor .organization
    let opened := (⟨.filtered Watch.ofFeed test (.ofCapacity 2), []⟩, .ofCapacity 8)
    let handled := FeedTurn.handled FeedTurn.fading opened
    let received := fun turns => (FeedTurn.runAll turns opened).1.received
    (∀ turn ∈ FeedTurn.fading, turn.ends = false) ∧
    handled.map (fun h => (h.1.type, h.2.revision)) =
      [(.added, 2), (.error, 2), (.modified, 4), (.added, 4), (.bookmark, 4)] ∧
    (received FeedTurn.fading).map (·.type) = [.added, .error, .bookmark] ∧
    received FeedTurn.fading =
      (handled.filter (Authorizer.fading.showsEvent actor .organization)).map Prod.fst ∧
    ∀ later, received (FeedTurn.fading ++ .watch .drop :: later) = received FeedTurn.fading := by
  have hGoesOn : ∀ turn ∈ FeedTurn.fading, turn.ends = false := by decide +kernel
  have hFilter := filtered_watch_shows_what_was_allowed Watch.ofFeed .fading ⟨"eve", []⟩
    .organization 2 FeedTurn.fading (.ofCapacity 8)
  dsimp only at hFilter ⊢
  obtain ⟨-, -, -, hAll, -, hDrop⟩ := hFilter
  obtain ⟨-, -, hComplete⟩ := hAll hGoesOn
  refine ⟨hGoesOn, by decide +kernel, by decide +kernel, hComplete ?_ (by decide +kernel), hDrop⟩
  rw [← List.isEmpty_iff]
  decide +kernel

/-! ## Lists -/

section

variable {authorizer : Authorizer (StateM σ)} {st t : σ}

/-- What is left of some items, each asked about in one state. -/
theorem Store.run_visible_checked (authorizer : Authorizer (StateM σ)) (actor : Actor)
    (collection : Collection) (items : List (Resource α)) (hAsked : authorizer.Asked st t) :
    ∃ checked : List (Resource α × σ), checked.map Prod.fst = items ∧
      (∀ c ∈ checked, authorizer.Asked st c.2) ∧
      ((visible authorizer actor collection items).run t).1 =
        (checked.filter fun c => authorizer.sees c.2 actor collection c.1.name).map Prod.fst := by
  induction items generalizing t with
  | nil => exact ⟨[], rfl, List.forall_mem_nil _, rfl⟩
  | cons item items ih =>
    obtain ⟨checked, hItems, hStates, hRest⟩ :=
      ih (.ask (.forName actor .get collection item.name) hAsked)
    refine ⟨(item, t) :: checked, by rw [List.map_cons, hItems],
      List.forall_mem_cons.2 ⟨hAsked, hStates⟩, ?_⟩
    simp only [visible, run_bind, Authorizer.run_maySee, hRest, run_pure, List.filter_cons]
    split <;> rfl

/-- A token is that of a name, if it is one at all. -/
theorem PageToken.cases (token : Option String) :
    (∃ start : Option String, token = start.map encode) ∨
      ∃ text fault, token = some text ∧ decode text = .error fault := by
  cases token with
  | none => exact .inl ⟨none, rfl⟩
  | some text =>
    cases hText : decode text with
    | error fault => exact .inr ⟨text, fault, rfl, hText⟩
    | ok name => exact .inl ⟨some name, congrArg some (decode_eq_ok_iff.1 hText).symm⟩

namespace BlobStore

variable {s : BlobStore (StateM σ) α} {p : Part σ MemoryContainer}
  (hContainer : s.container = MemoryContainer.container p.cell)
  (hList : s.capabilities.supports .list = true) {options : ListOptions}

include hContainer hList

/-- The page that is read for the token of a name, or for none. -/
theorem runOn_list_of_start {start : Option String}
    (hStart : options.continueToken = start.map PageToken.encode) (st : σ) :
    let page := MemoryContainer.page (toString (p.read st).revision)
      (some (s.config.pageSize options.limit)) ((p.read st).entries.after start)
    runOn (s.list options) st =
      ((page.items.mapM s.read).map fun items => { page with items := items }, st) := by
  have hPage : runOn (MemoryContainer.list
      { options with limit := some (s.config.pageSize options.limit) }) (p.read st) = _ :=
    MemoryContainer.runOn_list_of_start (p.read st) hStart
  rw [runOn_list hContainer hList, hPage]

theorem runOn_list_of_fault {text : String} {fault : PageToken.Fault}
    (hText : options.continueToken = some text) (hFault : PageToken.decode text = .error fault)
    (st : σ) : runOn (s.list options) st = (.error (.validationFailed fault.message), st) := by
  have hPage : runOn (MemoryContainer.list
      { options with limit := some (s.config.pageSize options.limit) }) (p.read st) = _ :=
    MemoryContainer.runOn_list_of_fault (p.read st) hText hFault
  rw [runOn_list hContainer hList, hPage]
  rfl

/-- The token of a page is that of its last item. -/
theorem decode_token {page : Page (Resource α)} (hRun : runOn (s.list options) st = (.ok page, t))
    {token : String} (hToken : page.continueToken = some token) :
    ∃ last, page.items.getLast? = some last ∧ PageToken.decode token = .ok last.name := by
  rcases PageToken.cases options.continueToken with ⟨start, hStart⟩ | ⟨text, fault, hText, hFault⟩
  · rw [runOn_list_of_start hContainer hList hStart] at hRun
    generalize hPage : MemoryContainer.page (toString (p.read st).revision)
      (some (s.config.pageSize options.limit)) ((p.read st).entries.after start) = entries at hRun
    cases hItems : entries.items.mapM s.read with
    | error e =>
      rw [hItems] at hRun
      cases hRun
    | ok items =>
      rw [hItems] at hRun
      obtain rfl := Except.ok.inj (Prod.mk.inj hRun).1
      obtain ⟨last, hLast, hEncode⟩ := MemoryContainer.token_page (hPage.symm ▸ hToken)
      have hNames := congrArg List.getLast? (names_of_read (map_ok_of_mapM_eq_ok hItems))
      rw [List.getLast?_map, List.getLast?_map, ← hPage, hLast] at hNames
      obtain ⟨item, hItem, hName⟩ := Option.map_eq_some_iff.1 hNames
      exact ⟨item, hItem, PageToken.decode_eq_ok_iff.2 (hName.symm ▸ hEncode)⟩
  · rw [runOn_list_of_fault hContainer hList hText hFault] at hRun
    cases hRun

omit hList in
/-- A list that succeeds behind an authorizer was allowed, and shows what was found visible of a
page of the store. -/
theorem list_authorized_succeeds {authorizer : Authorizer (StateM σ)} {watchBuffer : Nat}
    {call : Call} {page : Page (Resource α)}
    (hRun : runOn ((s.store.authorized authorizer watchBuffer).list call options) st =
      (.ok page, t)) :
    s.capabilities.supports .list = true ∧
    authorizer.Allows st (.forCollection call.actor .list s.collection) ∧
    ∃ below u, authorizer.Asked st u ∧ runOn (s.list options) u = (.ok below, u) ∧
      page = { below with
        items := ((Store.visible authorizer call.actor s.collection below.items).run u).1 } := by
  have hList : s.capabilities.supports .list = true := by
    cases hSupported : s.capabilities.supports .list with
    | true => rfl
    | false =>
      have hRefused : runOn ((s.store.authorized authorizer watchBuffer).list call options) st =
          (.error (.methodNotSupported .list), st) := Capabilities.runOn_require hSupported _ st
      rw [hRefused] at hRun
      cases hRun
  have hGuarded : runOn ((s.store.authorized authorizer watchBuffer).list call options) st = _ :=
    Store.runOn_guarded hList s.collection call none _ st
  have hQuestion : Store.question s.collection call .list none =
    .forCollection call.actor .list s.collection := rfl
  have hStart : authorizer.Asked st st := .start
  have hNow := Authorizer.Asked.ask (.forCollection call.actor .list s.collection) hStart
  rw [hGuarded, hQuestion] at hRun
  rw [Authorizer.Allows]
  rcases hAnswer : runOn (authorizer (.forCollection call.actor .list s.collection)) st with
    ⟨e | _ | reason, u⟩
  · rw [hAnswer] at hRun
    cases hRun
  · rw [hAnswer] at hRun hNow
    refine ⟨hList, rfl, ?_⟩
    have hInner : runOn (s.store.list call options) u = ((runOn (s.list options) u).1, u) :=
      runOn_list_of_read_eq hContainer hList options rfl
    dsimp only at hRun
    rw [runOn_bind, hInner] at hRun
    cases hBelow : (runOn (s.list options) u).1 with
    | error e =>
      rw [hBelow] at hRun
      cases hRun
    | ok below =>
      rw [hBelow] at hRun hInner
      exact ⟨below, u, hNow, hInner, (Except.ok.inj (Prod.mk.inj hRun).1).symm⟩
  · rw [hAnswer] at hRun
    cases hRun

end BlobStore

end

/-- Let a list behind an authorizer succeed.  Then the authorizer allowed it, and the page is that
of the store below without the items that the actor may not see: each was asked about in one state,
and if it is shown, the authorizer allowed the actor to get it then.  The token, if there is one,
stands for the name of the last item of the page below: if that item is shown, it is the last one of
the page, and otherwise its name can be read off the token all the same. -/
theorem list_hides_all_but_page_end (s : BlobStore (StateM σ) α) (p : Part σ MemoryContainer)
    (hContainer : s.container = MemoryContainer.container p.cell)
    (authorizer : Authorizer (StateM σ)) (watchBuffer : Nat) (call : Call) (options : ListOptions)
    (st t : σ) (page : Page (Resource α))
    (hRun : runOn ((s.store.authorized authorizer watchBuffer).list call options) st =
      (.ok page, t)) :
    ∃ (below : Page (Resource α)) (u : σ) (checked : List (Resource α × σ)),
      authorizer.Allows st (.forCollection call.actor .list s.collection) ∧
      authorizer.Asked st u ∧ runOn (s.list options) u = (.ok below, u) ∧
      checked.map Prod.fst = below.items ∧ (∀ c ∈ checked, authorizer.Asked st c.2) ∧
      page.items = (checked.filter fun c =>
        authorizer.sees c.2 call.actor s.collection c.1.name).map Prod.fst ∧
      (∀ item ∈ page.items, ∃ v, authorizer.Asked st v ∧
        authorizer.Allows v (.forName call.actor .get s.collection item.name)) ∧
      page.continueToken = below.continueToken ∧
      ∀ token, page.continueToken = some token → ∃ last v, checked.getLast? = some (last, v) ∧
        PageToken.decode token = .ok last.name ∧
        (authorizer.Allows v (.forName call.actor .get s.collection last.name) →
          page.items.getLast? = some last) := by
  obtain ⟨hList, hAllowed, below, u, hAsked, hBelow, rfl⟩ :=
    BlobStore.list_authorized_succeeds hContainer hRun
  obtain ⟨checked, hItems, hStates, hShown⟩ :=
    Store.run_visible_checked authorizer call.actor s.collection below.items hAsked
  refine ⟨below, u, checked, hAllowed, hAsked, hBelow, hItems, hStates, hShown,
    fun item hMem => ?_, rfl, fun token hToken => ?_⟩
  · rw [hShown] at hMem
    obtain ⟨⟨_, v⟩, hFiltered, rfl⟩ := List.mem_map.1 hMem
    obtain ⟨hChecked, hSees⟩ := List.mem_filter.1 hFiltered
    exact ⟨v, hStates _ hChecked, Authorizer.sees_iff.1 hSees⟩
  · obtain ⟨last, hLast, hName⟩ := BlobStore.decode_token hContainer hList hBelow hToken
    rw [← hItems, List.getLast?_map] at hLast
    obtain ⟨⟨_, v⟩, hEnd, rfl⟩ := Option.map_eq_some_iff.1 hLast
    refine ⟨_, v, hEnd, hName, fun hAllows => ?_⟩
    obtain ⟨front, rfl⟩ := List.getLast?_eq_some_iff.1 hEnd
    rw [hShown, List.filter_append, List.filter_singleton, Authorizer.sees_iff.2 hAllows]
    simp

/-- The page below has "a" and "c", and only "c" is left of it. -/
theorem list_hides_all_but_page_end_patchy :
    let call : Call := ⟨⟨"eve", []⟩, ⟨0, 0⟩, "1", "abcde"⟩
    let st := ContainerStep.runAll (["a", "c", "d"].map ContainerStep.creating) (.ofCapacity 8)
    let list := (BlobStore.inPairs.store.authorized .patchy).list call { limit := some 2 }
    ∃ page t token last, runOn list st = (.ok page, t) ∧ page.items.map (·.name) = ["c"] ∧
      page.continueToken = some token ∧ PageToken.decode token = .ok last.name ∧
      page.items.getLast? = some last := by
  intro call st list
  have hItems : (runOn list st).1.toOption.map (fun page => page.items.map (·.name)) =
      some ["c"] := by decide +kernel
  have hToken : (runOn list st).1.toOption.bind (·.continueToken) =
      some (PageToken.encode "c") := by decide +kernel
  rcases hRun : runOn list st with ⟨e | page, t⟩
  · rw [hRun] at hItems
    cases hItems
  · rw [hRun] at hItems hToken
    obtain ⟨_, _, _, -, -, -, -, -, -, -, -, hEnd⟩ := list_hides_all_but_page_end BlobStore.inPairs
      .whole rfl .patchy Channel.defaultCapacity call { limit := some 2 } st t page hRun
    obtain ⟨last, v, -, hName, hLast⟩ := hEnd _ hToken
    have hLastName : "c" = last.name :=
      Except.ok.inj ((PageToken.decode_encode "c").symm.trans hName)
    exact ⟨page, t, _, last, rfl, Option.some.inj hItems, hToken, hName, hLast (hLastName ▸ rfl)⟩

/-- Nothing is left of the page, but its token tells that there is a "b", which the actor may not
get. -/
theorem list_token_names_hidden_item :
    let call : Call := ⟨⟨"eve", []⟩, ⟨0, 0⟩, "1", "abcde"⟩
    let st := ContainerStep.runAll (["a", "b", "c"].map ContainerStep.creating) (.ofCapacity 8)
    let answer := (runOn ((BlobStore.inPairs.store.authorized .patchy).list call
      { limit := some 2 }) st).1.toOption
    answer.map (fun page => (page.items.map (·.name),
      page.continueToken.bind fun token => (PageToken.decode token).toOption)) =
        some ([], some "b") ∧
    ¬ Authorizer.patchy.Allows st (.forName call.actor .get .organization "b") := by
  refine ⟨by decide +kernel, ?_⟩
  simp only [Authorizer.Allows]
  decide +kernel

end Tenancy
