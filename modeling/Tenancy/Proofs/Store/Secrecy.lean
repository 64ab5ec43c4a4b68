import Tenancy.Proofs.Store.Disclosure
import Tenancy.Proofs.Store.Veil

/-!
# What a hidden entry gives away

Two runs differ in the name and the bytes of one entry, which the actor may get in neither of them.
Behind the authorizer the actor is shown the same in both, errors included, as long as the entry is
read alike: the error of an entry that cannot be read comes before the filter, and tells its name.

* `Authorizer.Conceals`: what the authorizer is relied on for.
* `entry_read_alike_stays_hidden`: the lists and the watches of the actor in the two runs.
-/

namespace Tenancy

open KeyOrder (before)

variable {σ α β : Type}

/-! ## Two runs -/

/-- What `rest` says of two states is not about the part. -/
def Part.IsIgnoredBy {τ : Type} (p : Part σ τ) (rest : σ → σ → Prop) : Prop :=
  ∀ (t t' : τ) (st st' : σ), rest st st' → rest (p.write t st) (p.write t' st')

/-- The states differ in one entry of their containers, and otherwise as `rest` allows it. -/
structure Veil.Around (v : Veil) (codec : Codec α) (p : Part σ MemoryContainer)
    (rest : σ → σ → Prop) (st st' : σ) : Prop where
  container : (p.read st).Alike v codec (p.read st')
  rest : rest st st'

/-- The turns are one move of a watch, one step of the containers, or any changes under which the
states go on differing in the one entry. -/
inductive Veil.Turn (v : Veil) (codec : Codec α) (p : Part σ MemoryContainer)
    (rest : σ → σ → Prop) : FeedTurn σ → FeedTurn σ → Prop
  | watch (move : WatchMove) : Turn v codec p rest (.watch move) (.watch move)
  | container {step step' : ContainerStep} (h : step.Alike v codec step') :
      Turn v codec p rest (.elsewhere fun st => p.write (step.run (p.read st)) st)
        (.elsewhere fun st => p.write (step'.run (p.read st)) st)
  | elsewhere {change change' : σ → σ}
      (h : ∀ st st', v.Around codec p rest st st' →
        v.Around codec p rest (change st) (change' st')) :
      Turn v codec p rest (.elsewhere change) (.elsewhere change')

section

variable {v : Veil} {s : BlobStore (StateM σ) α} {codec : Codec α} {p : Part σ MemoryContainer}
  {rest : σ → σ → Prop} (hIgnored : p.IsIgnoredBy rest)

include hIgnored

theorem Veil.Around.write {st st' : σ} {c c' : MemoryContainer} (h : v.Around codec p rest st st')
    (hAlike : c.Alike v codec c') : v.Around codec p rest (p.write c st) (p.write c' st') where
  container := by rwa [p.read_write, p.read_write]
  rest := hIgnored c c' st st' h.rest

theorem Veil.Turn.alike {turn turn' : FeedTurn σ} (h : v.Turn codec p rest turn turn') :
    turn.Alike (v.Around codec p rest) turn' := by
  cases h with
  | watch move => exact .watch move
  | container hStep =>
    exact .elsewhere fun st st' hAround => hAround.write hIgnored (hStep.run hAround.container)
  | elsewhere hChange => exact .elsewhere hChange

/-- Operations on the containers, in the two runs. -/
theorem Veil.matches_container {γ γ' : Type} {alike : γ → γ' → Prop} {x : StateM MemoryContainer γ}
    {x' : StateM MemoryContainer γ'}
    (h : Matches (MemoryContainer.Alike v codec) alike x.run x'.run) :
    Matches (v.Around codec p rest) alike (p.cell.access x).run (p.cell.access x').run :=
  matches_cell (fun hAround => hAround.container)
    (fun hAround hAlike => hAround.write hIgnored hAlike) h

/-! ## Stores -/

namespace BlobStore

omit hIgnored in
theorem mapM_read_alike {l l' : List Entry} (h : List.Forall₂ (Entry.Alike v s.codec) l l') :
    Agree (List.Forall₂ (Resource.Alike v)) (l.mapM s.read) (l'.mapM s.read) := by
  induction h with
  | nil => exact .ok .nil
  | @cons e e' l l' hHead _ ih =>
    have hRead := hHead.read
    rw [List.mapM_cons, List.mapM_cons]
    generalize s.read e = read, s.read e' = read' at hRead
    cases hRead with
    | error fault => exact .error fault
    | ok hResource =>
      generalize l.mapM s.read = items, l'.mapM s.read = items' at ih
      cases ih with
      | error fault => exact .error fault
      | ok hItems => exact .ok (.cons hResource hItems)

variable (hContainer : s.container = MemoryContainer.container p.cell)

include hContainer

theorem list_matches (hPlace : v.InPlace) {options options' : ListOptions}
    (hOptions : options.Alike v options') :
    Matches (v.Around s.codec p rest) (Agree (Page.Alike v (Resource.Alike v)))
      (runOn (s.list options)) (runOn (s.list options')) := by
  have hPage : Matches (v.Around s.codec p rest) (Agree (Page.Alike v (Entry.Alike v s.codec)))
      (runOn (s.access (s.container.list
        { options with limit := some (s.config.pageSize options.limit) })))
      (runOn (s.access (s.container.list
        { options' with limit := some (s.config.pageSize options'.limit) }))) := by
    rw [hContainer]
    exact matches_runOn_adapt _ (Veil.matches_container hIgnored (MemoryContainer.list_matches
      hPlace ⟨by rw [hOptions.limit], hOptions.continueToken⟩))
  refine matches_runOn_bind (matches_runOn_ofExcept (agree_self (fun _ => rfl) _)) fun _ _ _ => ?_
  refine matches_runOn_bind hPage fun page page' hAlike => ?_
  refine matches_runOn_bind (matches_runOn_ofExcept (mapM_read_alike hAlike.items)) ?_
  exact fun items items' hItems => matches_pure (.ok ⟨hItems, hAlike.continueToken, hAlike.version⟩)

theorem watch_matches {options : ListOptions}
    (hPlace : options.sendInitialEvents = true → v.InPlace) :
    Matches (v.Around s.codec p rest)
      (Agree (Watch.Alike (v.Around s.codec p rest) (Event.Alike (Resource.Alike v))))
      (runOn (s.watch options)) (runOn (s.watch options)) := by
  have hFeed : Matches (v.Around s.codec p rest)
      (Agree fun feed feed' => ∃ number, feed = MemoryContainer.subscription p.cell number ∧
        feed' = MemoryContainer.subscription p.cell number)
      (runOn (s.access (s.container.watch options)))
      (runOn (s.access (s.container.watch options))) := by
    rw [hContainer]
    refine matches_runOn_adapt _ (matches_runOn_lift (matches_bind
      (Veil.matches_container hIgnored fun c c' hAlike => hAlike.openFeed options hPlace) ?_))
    rintro feed _ rfl
    exact matches_pure ⟨feed, rfl, rfl⟩
  refine matches_runOn_bind (matches_runOn_ofExcept (agree_self (fun _ => rfl) _)) fun _ _ _ => ?_
  refine matches_runOn_bind hFeed ?_
  rintro _ _ ⟨feed, rfl, rfl⟩
  have hReceive : Matches (v.Around s.codec p rest)
      (Receipt.Alike (Event.Alike (Entry.Alike v s.codec)))
      (p.cell.access (MemoryContainer.receive feed)).run
      (p.cell.access (MemoryContainer.receive feed)).run :=
    Veil.matches_container hIgnored fun c c' hAlike => hAlike.receive feed
  have hCancel : Matches (v.Around s.codec p rest) Eq
      (p.cell.access (MemoryContainer.closeFeed feed)).run
      (p.cell.access (MemoryContainer.closeFeed feed)).run :=
    Veil.matches_container hIgnored fun c c' hAlike => ⟨rfl, hAlike.closeFeed feed⟩
  have hTake := matches_bind hReceive fun _ _ hReceipt => matches_pure (hReceipt.taken (s := s))
  exact matches_pure (.ok (.relayed hTake hCancel (.ofCapacity _ _)))

end BlobStore

end

/-! ## Authorizers -/

/-- The authorizer answers alike about all that two runs have in common, and allows the actor to get
the entry in which they differ in neither of them. -/
structure Authorizer.Conceals (authorizer : Authorizer (StateM σ)) (v : Veil)
    (same : σ → σ → Prop) (actor : Actor) (collection : Collection) : Prop where
  whole : ∀ verb, Respects same (runOn (authorizer (.forCollection actor verb collection)))
  known : ∀ name, v.known name →
    Respects same (runOn (authorizer (.forName actor .get collection name)))
  hidden : ∀ st st', same st st' →
    ¬ authorizer.Allows st (.forName actor .get collection v.hidden) ∧
    ¬ authorizer.Allows st' (.forName actor .get collection v.hidden') ∧
    same (runOn (authorizer (.forName actor .get collection v.hidden)) st).2
      (runOn (authorizer (.forName actor .get collection v.hidden')) st').2

namespace Authorizer.Conceals

variable {authorizer : Authorizer (StateM σ)} {v : Veil} {same : σ → σ → Prop} {actor : Actor}
  {collection : Collection} (h : authorizer.Conceals v same actor collection)

include h

/-- What the actor may see is the same in both runs. -/
theorem maySee {r r' : Resource α} (hAlike : r.Alike v r') :
    Matches same (fun sees sees' => sees = sees' ∧ (sees = true → r = r'))
      (authorizer.maySee actor collection r.name).run
      (authorizer.maySee actor collection r'.name).run := by
  intro st st' hSame
  rw [run_maySee, run_maySee]
  cases hAlike with
  | known hKnown =>
    obtain ⟨hAnswer, hNext⟩ := h.known _ hKnown st st' hSame
    refine ⟨⟨?_, fun _ => rfl⟩, hNext⟩
    rw [sees, sees, hAnswer]
  | hidden hName hName' =>
    obtain ⟨hDenied, hDenied', hNext⟩ := h.hidden st st' hSame
    rw [hName, hName']
    have hUnseen := Bool.eq_false_iff.2 (mt sees_iff.1 hDenied)
    have hUnseen' := Bool.eq_false_iff.2 (mt sees_iff.1 hDenied')
    exact ⟨⟨hUnseen.trans hUnseen'.symm, fun hSees => absurd hSees (mt sees_iff.1 hDenied)⟩, hNext⟩

theorem maySeeEvent {e e' : Event (Resource α)} (hAlike : e.Alike (Resource.Alike v) e') :
    Matches same (Screened Eq e e') (Store.maySeeEvent authorizer actor collection e).run
      (Store.maySeeEvent authorizer actor collection e').run := by
  cases hAlike with
  | added hObject =>
    exact (h.maySee hObject).imp fun _ _ hSees => ⟨hSees.1, fun hShown => hSees.2 hShown ▸ rfl⟩
  | modified hObject =>
    exact (h.maySee hObject).imp fun _ _ hSees => ⟨hSees.1, fun hShown => hSees.2 hShown ▸ rfl⟩
  | deleted hObject =>
    exact (h.maySee hObject).imp fun _ _ hSees => ⟨hSees.1, fun hShown => hSees.2 hShown ▸ rfl⟩
  | error status => exact matches_pure ⟨rfl, fun _ => rfl⟩
  | bookmark version => exact matches_pure ⟨rfl, fun _ => rfl⟩

theorem visible {items items' : List (Resource α)}
    (hItems : List.Forall₂ (Resource.Alike v) items items') :
    Matches same Eq (Store.visible authorizer actor collection items).run
      (Store.visible authorizer actor collection items').run := by
  induction hItems with
  | nil => exact matches_pure rfl
  | cons hHead _ ih =>
    refine matches_bind (h.maySee hHead) ?_
    rintro sees _ ⟨rfl, hSame⟩
    refine matches_bind ih ?_
    rintro rest _ rfl
    refine matches_pure ?_
    cases sees with
    | true => rw [hSame rfl]
    | false => rfl

theorem authorize {call : Call} (hActor : call.actor = actor) (verb : Verb) :
    Matches same (Agree Eq) (runOn (Store.authorize authorizer collection call verb none))
      (runOn (Store.authorize authorizer collection call verb none)) := by
  subst hActor
  have hAnswer : Matches same Eq (authorizer (.forCollection call.actor verb collection)).run.run
    (authorizer (.forCollection call.actor verb collection)).run.run := h.whole verb
  refine matches_runOn_bind (matches_runOn_lift hAnswer) ?_
  rintro answer _ rfl
  cases answer with
  | error fault => exact matches_pure (.error _)
  | ok decision =>
    cases decision with
    | allow => exact matches_pure (.ok rfl)
    | deny reason => exact matches_pure (.error _)

end Authorizer.Conceals

/-! ## Stores behind an authorizer -/

section

variable {v : Veil} {s : BlobStore (StateM σ) α} {p : Part σ MemoryContainer}
  {rest : σ → σ → Prop} (hIgnored : p.IsIgnoredBy rest)
  (hContainer : s.container = MemoryContainer.container p.cell)
  {authorizer : Authorizer (StateM σ)} (watchBuffer : Nat) (call : Call)
  (hConceals : authorizer.Conceals v (v.Around s.codec p rest) call.actor s.collection)

include hIgnored hContainer hConceals

namespace BlobStore

theorem authorized_list_matches (hPlace : v.InPlace) {options options' : ListOptions}
    (hOptions : options.Alike v options') :
    Matches (v.Around s.codec p rest) (Agree (Page.Alike v Eq))
      (runOn ((s.store.authorized authorizer watchBuffer).list call options))
      (runOn ((s.store.authorized authorizer watchBuffer).list call options')) := by
  refine matches_runOn_bind (matches_runOn_ofExcept (agree_self (fun _ => rfl) _)) fun _ _ _ => ?_
  refine matches_runOn_bind (hConceals.authorize rfl .list) fun _ _ _ => ?_
  refine matches_runOn_bind (list_matches hIgnored hContainer hPlace hOptions) ?_
  intro page page' hAlike
  refine matches_runOn_bind (matches_runOn_lift (hConceals.visible hAlike.items)) ?_
  rintro items _ rfl
  exact matches_pure (.ok ⟨List.forall₂_refl items, hAlike.continueToken, hAlike.version⟩)

theorem authorized_watch_matches {options : ListOptions}
    (hPlace : options.sendInitialEvents = true → v.InPlace) :
    Matches (v.Around s.codec p rest) (Agree (Watch.Alike (v.Around s.codec p rest) Eq))
      (runOn ((s.store.authorized authorizer watchBuffer).watch call options))
      (runOn ((s.store.authorized authorizer watchBuffer).watch call options)) := by
  refine matches_runOn_bind (matches_runOn_ofExcept (agree_self (fun _ => rfl) _)) fun _ _ _ => ?_
  refine matches_runOn_bind (hConceals.authorize rfl .watch) fun _ _ _ => ?_
  refine matches_runOn_bind (watch_matches hIgnored hContainer hPlace) fun w w' hAlike => ?_
  exact matches_pure (.ok (.filtered hAlike (fun e e' hEvent => hConceals.maySeeEvent hEvent)
    (.ofCapacity _ _)))

end BlobStore

end

/-- Two runs differ in the name and the bytes of one entry; the bytes can be read in both, or under
one name the reading fails in the same way; and the authorizer, which otherwise answers alike, never
allows the actor to get the entry.  Then a list fails with the same error in both runs or shows the
same items, if the two names stand at one place among the others.  A watch is opened in both runs or
fails to be opened in the same way, and after the same turns its consumer has received the same
events, error events included; the names have to stand at one place only if the watch begins with
the entries that there are.  The runs go on differing in the one entry, so this is so for every list
and every watch at any time. -/
theorem entry_read_alike_stays_hidden (s : BlobStore (StateM σ) α)
    (p : Part σ MemoryContainer) (hContainer : s.container = MemoryContainer.container p.cell)
    (authorizer : Authorizer (StateM σ)) (watchBuffer : Nat) (call : Call) (v : Veil)
    (rest : σ → σ → Prop) (hIgnored : p.IsIgnoredBy rest)
    (hConceals : authorizer.Conceals v (v.Around s.codec p rest) call.actor s.collection) :
    let store := s.store.authorized authorizer watchBuffer
    let around := v.Around s.codec p rest
    (v.InPlace → ∀ options options' : ListOptions, options.Alike v options' →
      Matches around (Agree fun page page' => page.items = page'.items ∧
          v.Token page.continueToken page'.continueToken ∧ page.version = page'.version)
        (runOn (store.list call options)) (runOn (store.list call options'))) ∧
    ∀ options : ListOptions, (options.sendInitialEvents = true → v.InPlace) →
      Matches around (Agree fun w w' => ∀ st st', around st st' →
          ∀ turns turns' : List (FeedTurn σ), List.Forall₂ (v.Turn s.codec p rest) turns turns' →
            let now := FeedTurn.runAll turns (⟨w, []⟩, st)
            let now' := FeedTurn.runAll turns' (⟨w', []⟩, st')
            now.1.received = now'.1.received ∧ around now.2 now'.2)
        (runOn (store.watch call options)) (runOn (store.watch call options)) := by
  intro store around
  refine ⟨fun hPlace options options' hOptions => ?_, fun options hPlace => ?_⟩
  · have hList := BlobStore.authorized_list_matches hIgnored hContainer watchBuffer call hConceals
      hPlace hOptions
    refine hList.imp fun _ _ hAgree => hAgree.imp fun page page' hPage => ?_
    exact ⟨List.forall₂_eq_eq_eq ▸ hPage.items, hPage.continueToken, hPage.version⟩
  · have hWatch := BlobStore.authorized_watch_matches hIgnored hContainer watchBuffer call
      hConceals hPlace
    refine hWatch.imp fun _ _ hAgree => hAgree.imp fun w w' hAlike => ?_
    intro st st' hAround turns turns' hTurns now now'
    have hOpened : Watching.Alike around Eq ⟨w, []⟩ ⟨w', []⟩ := ⟨hAlike, .nil⟩
    obtain ⟨hNow, hAfter⟩ := FeedTurn.alike_runAll hOpened hAround
      (hTurns.imp fun _ _ hTurn => hTurn.alike hIgnored)
    exact ⟨List.forall₂_eq_eq_eq ▸ hNow.received, hAfter⟩

/-! ## Entries that can and cannot be read -/

theorem Authorizer.respects_patchy (same : MemoryContainer → MemoryContainer → Prop)
    (q : AccessRequest) : Respects same (runOn (patchy q)) := by
  unfold patchy
  split
  · exact respects_runOn_throw _
  · split <;> exact respects_runOn_pure _

def Veil.patchy : Veil where
  hidden := "a"
  hidden' := "b"
  known name := name ∈ ["c", "e"]
  hidden_unknown := by decide
  hidden'_unknown := by decide

theorem Veil.inPlace_patchy : Veil.patchy.InPlace := by
  have hPlace : ∀ name ∈ ["c", "e"], before name "a" = before name "b" := by decide +kernel
  exact hPlace

theorem Authorizer.patchy_conceals (same : MemoryContainer → MemoryContainer → Prop)
    (actor : Actor) (collection : Collection) :
    patchy.Conceals Veil.patchy same actor collection where
  whole _ := respects_patchy same _
  known _ _ := respects_patchy same _
  hidden st st' hSame := by
    have hDenies : ∀ name ∈ ["a", "b"], ∀ st : MemoryContainer,
        runOn (patchy (.forName actor .get collection name)) st = (.ok (.deny "hidden"), st) := by
      simp [patchy, AccessRequest.forName]
    have hFirst : runOn (patchy (.forName actor .get collection Veil.patchy.hidden)) st = _ :=
      hDenies "a" (by decide) st
    have hSecond : runOn (patchy (.forName actor .get collection Veil.patchy.hidden')) st' = _ :=
      hDenies "b" (by decide) st'
    rw [Allows, Allows, hFirst, hSecond]
    exact ⟨by simp, by simp, hSame⟩

/-- What comes of opening a watch and letting some turns pass; nothing if it cannot be opened. -/
def Store.watched (store : Store (StateM σ) α) (call : Call) (options : ListOptions)
    (turns : List (FeedTurn σ)) (st : σ) : List (Event (Resource α)) :=
  match runOn (store.watch call options) st with
  | (.ok w, t) => (FeedTurn.runAll turns (⟨w, []⟩, t)).1.received
  | (.error _, _) => []

theorem Store.watched_eq {store : Store (StateM σ) α} {call : Call} {options : ListOptions}
    {turns turns' : List (FeedTurn σ)} {around : σ → σ → Prop} {st st' : σ}
    (hOpened : around (runOn (store.watch call options) st).2
      (runOn (store.watch call options) st').2)
    (hWatches : Agree (fun w w' => ∀ t t', around t t' →
        (FeedTurn.runAll turns (⟨w, []⟩, t)).1.received =
          (FeedTurn.runAll turns' (⟨w', []⟩, t')).1.received)
      (runOn (store.watch call options) st).1 (runOn (store.watch call options) st').1) :
    store.watched call options turns st = store.watched call options turns' st' := by
  rw [watched, watched]
  generalize runOn (store.watch call options) st = opened,
    runOn (store.watch call options) st' = opened' at hOpened hWatches
  obtain ⟨result, t⟩ := opened
  obtain ⟨result', t'⟩ := opened'
  cases hWatches with
  | error fault => rfl
  | ok hReceived => exact hReceived t t' hOpened

/-- An entry that is hidden from everybody is written beside one that cannot be read and one that
can. -/
def ContainerStep.besideHidden (name : String) (bytes : Bytes) : List ContainerStep :=
  [.write (.create ⟨"1", ⟨0, 0⟩⟩ name bytes), .write (.create ⟨"2", ⟨0, 0⟩⟩ "c" []),
    .write (.create ⟨"3", ⟨0, 0⟩⟩ "e" [1])]

/-- The hidden entry is written again, and then four events go through the watch. -/
def FeedTurn.besideHidden (name : String) (bytes : Bytes) : List (FeedTurn MemoryContainer) :=
  let round : List WatchMove := [.relay 0, .relay 0, .relay 1, .relay 1, .receive]
  .elsewhere (ContainerStep.write (.patch name bytes)).run ::
    ((List.replicate 4 round).flatten.map .watch)

theorem Veil.patchy_content (bytes bytes' : Bytes) (hBytes : bytes ≠ []) (hBytes' : bytes' ≠ []) :
    Veil.patchy.Content Codec.someBytes "a" bytes "b" bytes' := by
  have hReads : ∀ bytes : Bytes, bytes ≠ [] → Codec.someBytes.Reads bytes := fun bytes hSome =>
    ⟨bytes, if_neg (by simpa using hSome)⟩
  exact .hidden (hReads bytes hBytes) (hReads bytes' hBytes')

theorem entry_read_alike_stays_hidden_patchy :
    let call : Call := ⟨⟨"eve", []⟩, ⟨0, 0⟩, "1", "abcde"⟩
    let store := BlobStore.narrow.store.authorized .patchy
    let written := fun name bytes =>
      ContainerStep.runAll (ContainerStep.besideHidden name bytes) (.ofCapacity 8)
    let list := fun name bytes => (runOn (store.list call {}) (written name bytes)).1
    let watched := fun name bytes bytes' => store.watched call { sendInitialEvents := true }
      (FeedTurn.besideHidden name bytes') (written name bytes)
    problem? (list "a" [1]) = problem? (list "b" [7, 7]) ∧
    problem? (list "a" [1]) =
      some (.internal "decoding organizations \"c\": Decode error: no bytes") ∧
    watched "a" [1] [2] = watched "b" [7, 7] [8, 8] ∧
    (watched "a" [1] [2]).map (·.type) = [.error, .added] := by
  intro call store written list watched
  obtain ⟨hLists, hWatches⟩ := entry_read_alike_stays_hidden BlobStore.narrow .whole rfl
    .patchy Channel.defaultCapacity call Veil.patchy (fun _ _ => True) (fun _ _ _ _ _ => trivial)
    (Authorizer.patchy_conceals _ _ _)
  have hAround : Veil.patchy.Around Codec.someBytes .whole (fun _ _ => True) (written "a" [1])
      (written "b" [7, 7]) := by
    have hHidden := Veil.patchy_content [1] [7, 7] (by simp) (by simp)
    have hFirst : Veil.patchy.known "c" := List.mem_cons_self
    have hSecond : Veil.patchy.known "e" := List.mem_cons_of_mem _ List.mem_cons_self
    refine ⟨ContainerStep.alike_runAll ?_ (.ofCapacity _ _ 8), trivial⟩
    exact .cons (.write (.create _ hHidden)) (.cons (.write (.create _ (.known hFirst _)))
      (.cons (.write (.create _ (.known hSecond _))) .nil))
  refine ⟨?_, by decide +kernel, ?_, by decide +kernel⟩
  · have hOptions : ListOptions.Alike Veil.patchy {} {} := ⟨rfl, .start .none⟩
    exact (hLists Veil.inPlace_patchy {} {} hOptions _ _ hAround).1.problem?_eq
  · have hTurns : List.Forall₂ (Veil.patchy.Turn Codec.someBytes .whole fun _ _ => True)
        (FeedTurn.besideHidden "a" [2]) (FeedTurn.besideHidden "b" [8, 8]) := by
      have hHidden := Veil.patchy_content [2] [8, 8] (by simp) (by simp)
      refine .cons (.container (.write (.patch hHidden))) (List.forall₂_map_left_iff.2 ?_)
      exact List.forall₂_map_right_iff.2 (List.forall₂_same.2 fun move _ => .watch move)
    obtain ⟨hAgree, hOpened⟩ := hWatches { sendInitialEvents := true }
      (fun _ => Veil.inPlace_patchy) _ _ hAround
    exact Store.watched_eq hOpened (hAgree.imp fun w w' hReceived t t' hStates =>
      (hReceived t t' hStates _ _ hTurns).1)

/-- Nobody may get "a" and "b".  If "a" cannot be read, lists and watches fail with its name in the
error, and not if it can be read.  And if "a" is called "b" instead, the unreadable "aa" comes
before it: on a page of one entry, and as the first event of a watch. -/
theorem hidden_entry_shows_in_errors :
    let call : Call := ⟨⟨"eve", []⟩, ⟨0, 0⟩, "1", "abcde"⟩
    let store := BlobStore.narrow.store.authorized .patchy
    let create := fun name bytes => ContainerStep.write (.create ⟨name, ⟨0, 0⟩⟩ name bytes)
    let written := fun steps => ContainerStep.runAll steps (.ofCapacity 8)
    let failure := fun limit steps =>
      (problem? (runOn (store.list call { limit := limit }) (written steps)).1).map (·.message)
    let watched := fun steps => store.watched call { sendInitialEvents := true }
      ([.relay 0, .relay 0, .relay 1, .relay 1, .receive].map .watch) (written steps)
    let fault := fun name =>
      "Internal error: decoding organizations \"" ++ name ++ "\": Decode error: no bytes"
    (∀ name ∈ ["a", "b"], ∀ steps,
      ¬ Authorizer.patchy.Allows (written steps) (.forName call.actor .get .organization name)) ∧
    failure none [create "a" []] = some (fault "a") ∧ failure none [create "a" [1]] = none ∧
    watched [create "a" []] = [.error ⟨500, "INTERNAL_ERROR", fault "a"⟩] ∧
    watched [create "a" [1]] = [] ∧
    failure (some 1) [create "a" [1], create "aa" []] = none ∧
    failure (some 1) [create "b" [1], create "aa" []] = some (fault "aa") ∧
    watched [create "a" [1], create "aa" []] = [] ∧
    watched [create "b" [1], create "aa" []] =
      [.error ⟨500, "INTERNAL_ERROR", fault "aa"⟩] := by
  refine ⟨?_, by decide +kernel, by decide +kernel, by decide +kernel, by decide +kernel,
    by decide +kernel, by decide +kernel, by decide +kernel, by decide +kernel⟩
  simp [Authorizer.Allows, Authorizer.patchy, AccessRequest.forName]

end Tenancy
