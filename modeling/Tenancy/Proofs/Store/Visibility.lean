import Tenancy.Proofs.Store.Permission
import Tenancy.Proofs.Store.Scan

/-!
# Listing and getting agree

Behind an authorizer a list is cut into pages first, and then what the actor may not get is left
out of each page.  The tokens are those of the unfiltered pages, so a page of which nothing is left
still leads on to the next one, and a scan comes past every entry.

* `Store.scan`: the requests of a scan to any store.
* `BlobStore.scan_authorized`: behind an authorizer the answers are the same, filtered.
* `list_shows_what_get_shows`: together they have exactly what the actor can get.
-/

namespace Tenancy

variable {σ α : Type}

/-! ## Steady authorizers -/

namespace Authorizer

/-- The states to which asking the authorizer leads. -/
inductive Asked (authorizer : Authorizer (StateM σ)) (st : σ) : σ → Prop
  | start : Asked authorizer st st
  | ask (q : AccessRequest) {t : σ} (hAsked : Asked authorizer st t) :
      Asked authorizer st (runOn (authorizer q) t).2

/-- However often the authorizer is asked from now on, it answers as it does now and leaves the
container alone. -/
structure IsSteady (authorizer : Authorizer (StateM σ)) (p : Part σ MemoryContainer) (st : σ) :
    Prop where
  answers : ∀ t, authorizer.Asked st t → ∀ q,
    (runOn (authorizer q) t).1 = (runOn (authorizer q) st).1
  spares : ∀ t, authorizer.Asked st t → p.read t = p.read st

def sees (authorizer : Authorizer (StateM σ)) (st : σ) (actor : Actor) (collection : Collection)
    (name : String) : Bool :=
  match (runOn (authorizer (.forName actor .get collection name)) st).1 with
  | .ok decision => decision.isAllowed
  | .error _ => false

variable {authorizer : Authorizer (StateM σ)} {st : σ} {actor : Actor} {collection : Collection}

theorem run_maySee (name : String) :
    (authorizer.maySee actor collection name).run st =
      (authorizer.sees st actor collection name,
        (runOn (authorizer (.forName actor .get collection name)) st).2) := by
  simp only [maySee, sees, run_bind, run_run_eq_runOn]
  rcases runOn (authorizer (.forName actor .get collection name)) st with ⟨_ | _, t⟩ <;> rfl

theorem sees_iff {name : String} : authorizer.sees st actor collection name = true ↔
    authorizer.Allows st (.forName actor .get collection name) := by
  rw [sees, Allows]
  rcases (runOn (authorizer (.forName actor .get collection name)) st).1 with e | _ | reason <;>
    simp [Decision.isAllowed]

/-- What is left of some items does not depend on when they are checked. -/
theorem IsSteady.run_visible {p : Part σ MemoryContainer} (h : authorizer.IsSteady p st)
    (actor : Actor) (collection : Collection) (items : List (Resource α)) {t : σ}
    (hAsked : authorizer.Asked st t) :
    ∃ u, authorizer.Asked st u ∧
      (Store.visible authorizer actor collection items).run t =
        (items.filter fun r => authorizer.sees st actor collection r.name, u) := by
  induction items generalizing t with
  | nil => exact ⟨t, hAsked, rfl⟩
  | cons item items ih =>
    have hSees : authorizer.sees t actor collection item.name =
        authorizer.sees st actor collection item.name := by
      rw [sees, sees, h.answers t hAsked]
    obtain ⟨u, hEnd, hRest⟩ := ih (.ask (.forName actor .get collection item.name) hAsked)
    refine ⟨u, hEnd, ?_⟩
    simp only [Store.visible, run_bind, run_maySee, hSees, hRest, run_pure, List.filter_cons]

/-- An authorizer that only looks is steady. -/
theorem IsPassive.isSteady (h : authorizer.IsPassive) (p : Part σ MemoryContainer) (st : σ) :
    authorizer.IsSteady p st := by
  have hSame : ∀ t, authorizer.Asked st t → t = st := by
    intro t hAsked
    induction hAsked with
    | start => rfl
    | ask q _ ih => rw [h, ih]
  exact ⟨fun t hAsked q => by rw [hSame t hAsked], fun t hAsked => by rw [hSame t hAsked]⟩

end Authorizer

/-! ## Scans of any store -/

/-- The answers to the requests of a scan from a token on, and the state at its end.  There are at
most as many requests as the number says. -/
def Store.scan (store : Store (StateM σ) α) (call : Call) (options : ListOptions) :
    Nat → Option String → σ → List (Except StoreError (Page (Resource α))) × σ
  | 0, _, st => ([], st)
  | requests + 1, token, st =>
    match runOn (store.list call { options with continueToken := token }) st with
    | (.error e, st) => ([.error e], st)
    | (.ok page, st) =>
      match page.continueToken with
      | none => ([.ok page], st)
      | some next =>
        let (answers, st) := store.scan call options requests (some next) st
        (.ok page :: answers, st)

def Page.showing (visible : String → Bool) (page : Page (Resource α)) : Page (Resource α) :=
  { page with items := page.items.filter fun r => visible r.name }

/-- The number of entries for which a page has room, in a collection of `size` entries: a page size
of zero is no limit. -/
def StoreConfig.room (config : StoreConfig) (requested : Option Nat) (size : Nat) : Nat :=
  if config.pageSize requested = 0 then size + 1 else config.pageSize requested

namespace StoreConfig

variable {config : StoreConfig} {requested : Option Nat} {size : Nat}

theorem room_pos : 0 < config.room requested size := by
  unfold room
  split <;> omega

theorem pageCount_room :
    pageCount (config.room requested size) size = pageCount (config.pageSize requested) size := by
  unfold room
  split
  · rename_i hZero
    rw [pageCount_of_le (Nat.succ_pos size) (Nat.le_succ size), hZero, pageCount, Nat.div_zero]
    rfl
  · rfl

theorem maxPageSize_pos (hSize : config.pageSize requested ≠ 0) : 0 < config.maxPageSize := by
  unfold pageSize at hSize
  split at hSize <;> omega

end StoreConfig

theorem SortedMap.length_after_le (entries : SortedMap String Entry) (start : Option String) :
    (entries.after start).length ≤ entries.size := by
  cases start with
  | none => exact Nat.le_of_eq (List.length_map ..)
  | some low =>
    rw [after, List.length_map]
    exact List.length_filter_le ..

namespace BlobStore

variable {s : BlobStore (StateM σ) α} {p : Part σ MemoryContainer}
  (hContainer : s.container = MemoryContainer.container p.cell)
  (hList : s.capabilities.supports .list = true) {st : σ}

include hContainer hList

/-- A list depends on nothing but the container, and changes nothing. -/
theorem runOn_list_of_read_eq (options : ListOptions) {t : σ} (hSame : p.read t = p.read st) :
    runOn (s.list options) t = ((runOn (s.list options) st).1, t) := by
  rw [runOn_list hContainer hList, runOn_list hContainer hList, hSame]
  cases (runOn (MemoryContainer.list
    { options with limit := some (s.config.pageSize options.limit) }) (p.read st)).1 <;> rfl

theorem list_isPage_room (options : ListOptions) (hNamed : Named (p.read st).entries)
    (hReadable : s.Readable (p.read st)) (start : Option String) :
    ∃ page,
      runOn (s.list { options with continueToken := start.map PageToken.encode }) st =
        (.ok page, st) ∧
      IsPage s (s.config.room options.limit (p.read st).entries.size) start (p.read st) page := by
  rw [StoreConfig.room]
  split
  · rename_i hZero
    have hRoom := (p.read st).entries.length_after_le start
    exact list_isPage_of_zero hContainer hList st options hZero hNamed hReadable start (by omega)
  · rename_i hSize
    exact list_isPage hContainer hList st options (StoreConfig.maxPageSize_pos hSize) hNamed
      hReadable start

/-- The answers to a scan of the store itself. -/
theorem pages_scan_store (call : Call) (options : ListOptions)
    (hNamed : Named (p.read st).entries) (hReadable : s.Readable (p.read st)) (requests : Nat)
    (start : Option String) :
    (s.store.scan call options requests (start.map PageToken.encode) st).2 = st ∧
    Pages s (s.config.room options.limit (p.read st).entries.size) requests start
      ((s.store.scan call options requests (start.map PageToken.encode) st).1.map
        (p.read st, ·)) := by
  induction requests generalizing start with
  | zero => exact ⟨rfl, .cut start⟩
  | succ requests ih =>
    obtain ⟨page, hRun, hPage⟩ := list_isPage_room hContainer hList options hNamed hReadable start
    have hAnswer : runOn (s.store.list call
        { options with continueToken := start.map PageToken.encode }) st = (.ok page, st) := hRun
    rcases hPage.takes StoreConfig.room_pos hNamed with
      ⟨taken, hTakes, hLength, hToken⟩ | ⟨front, last, back, hTakes, hBack, hLength, hToken⟩
    · simp only [Store.scan, hAnswer, hToken, true_and]
      exact .last requests start _ page taken hTakes hLength hToken
    · obtain ⟨hEnd, hRest⟩ := ih (some last.name)
      rw [Option.map_some] at hEnd hRest
      simp only [Store.scan, hAnswer, hToken, hEnd, true_and]
      exact .next requests start _ page front last back _ hTakes hBack hLength
        (by simp [hToken]) hRest

variable {authorizer : Authorizer (StateM σ)} (hSteady : authorizer.IsSteady p st) {call : Call}
  (hListed : authorizer.Allows st (.forCollection call.actor .list s.collection))
  (watchBuffer : Nat)

include hSteady hListed

theorem list_authorized (options : ListOptions) {t : σ} (hAsked : authorizer.Asked st t) :
    ∃ u, authorizer.Asked st u ∧
      runOn ((s.store.authorized authorizer watchBuffer).list call options) t =
        ((runOn (s.list options) st).1.map
          (Page.showing (authorizer.sees st call.actor s.collection)), u) := by
  have hRun : runOn ((s.store.authorized authorizer watchBuffer).list call options) t = _ :=
    Store.runOn_guarded hList s.collection call none _ t
  have hAllowed := (hSteady.answers t hAsked _).trans hListed
  have hNow := Authorizer.Asked.ask (.forCollection call.actor .list s.collection) hAsked
  have hQuestion : Store.question s.collection call .list none =
    .forCollection call.actor .list s.collection := rfl
  rw [hRun, hQuestion]
  rcases hAnswer : runOn (authorizer (.forCollection call.actor .list s.collection)) t with ⟨a, v⟩
  rw [hAnswer] at hAllowed hNow
  obtain rfl : a = .ok .allow := hAllowed
  have hInner : runOn (s.store.list call options) v = ((runOn (s.list options) st).1, v) :=
    runOn_list_of_read_eq hContainer hList options (hSteady.spares v hNow)
  dsimp only
  rw [runOn_bind, hInner]
  rcases (runOn (s.list options) st).1 with e | page
  · exact ⟨v, hNow, rfl⟩
  · obtain ⟨u, hEnd, hVisible⟩ := hSteady.run_visible call.actor s.store.collection page.items hNow
    refine ⟨u, hEnd, ?_⟩
    simp only [runOn_bind, runOn_lift, hVisible]
    rfl

/-- Behind the authorizer the answers are those of the store, filtered. -/
theorem scan_authorized (options : ListOptions) (requests : Nat) (token : Option String) {t : σ}
    (hAsked : authorizer.Asked st t) :
    ∃ u, authorizer.Asked st u ∧
      (s.store.authorized authorizer watchBuffer).scan call options requests token t =
        ((s.store.scan call options requests token st).1.map
          (·.map (Page.showing (authorizer.sees st call.actor s.collection))), u) := by
  induction requests generalizing token t with
  | zero => exact ⟨t, hAsked, rfl⟩
  | succ requests ih =>
    obtain ⟨v, hNext, hRun⟩ := list_authorized hContainer hList hSteady hListed watchBuffer
      { options with continueToken := token } hAsked
    have hInner : runOn (s.store.list call { options with continueToken := token }) st =
        ((runOn (s.list { options with continueToken := token }) st).1, st) :=
      runOn_list_of_read_eq hContainer hList _ rfl
    rw [Store.scan, Store.scan, hRun, hInner]
    rcases (runOn (s.list { options with continueToken := token }) st).1 with e | page
    · exact ⟨v, hNext, rfl⟩
    · have hToken : (page.showing (authorizer.sees st call.actor s.collection)).continueToken =
        page.continueToken := rfl
      simp only [map_ok, hToken]
      cases page.continueToken with
      | none => exact ⟨v, hNext, rfl⟩
      | some next =>
        obtain ⟨u, hEnd, hRest⟩ := ih (some next) hNext
        exact ⟨u, hEnd, by simp only [hRest, List.map_cons, map_ok]⟩

omit hList hListed in
/-- A resource is got exactly if the actor may see it and its entry is read so. -/
theorem get_authorized (hGet : s.capabilities.supports .get = true) {name : String}
    {r : Resource α} {t : σ} (hAsked : authorizer.Asked st t) :
    (runOn ((s.store.authorized authorizer watchBuffer).get call name) t).1 = .ok r ↔
      authorizer.sees st call.actor s.collection name = true ∧
      ∃ entry, (p.read st).entries.get? name = some entry ∧ s.read entry = .ok r := by
  have hRun : runOn ((s.store.authorized authorizer watchBuffer).get call name) t = _ :=
    Store.runOn_guarded hGet s.collection call (some name) _ t
  have hSame := hSteady.answers t hAsked (.forName call.actor .get s.collection name)
  have hNow := Authorizer.Asked.ask (.forName call.actor .get s.collection name) hAsked
  rw [hRun, Store.question_some, Authorizer.sees_iff, Authorizer.Allows, ← hSame]
  rcases hAnswer : runOn (authorizer (.forName call.actor .get s.collection name)) t with
    ⟨e | _ | reason, v⟩
  · simp
  · have hInner : runOn (s.store.get call name) v = _ := runOn_get hContainer hGet name v
    rw [hAnswer] at hNow
    simp only [hInner, hSteady.spares v hNow, true_and]
    cases (p.read st).entries.get? name <;> simp
  · simp

end BlobStore

/-! ## What is shown -/

/-- The pages that a call to a store has been given show, once and in the order of names, all that
can be got from the store in the state. -/
structure Shows (store : Store (StateM σ) α) (call : Call) (st : σ)
    (pages : List (Page (Resource α))) : Prop where
  ascending : ((pages.flatMap (·.items)).map (·.name)).Pairwise fun a b => utf8 a < utf8 b
  mem_iff : ∀ name r, r ∈ pages.flatMap (·.items) ∧ r.name = name ↔
    (runOn (store.get call name) st).1 = .ok r

theorem items_showing (visible : String → Bool) (pages : List (Page (Resource α))) :
    (pages.map (Page.showing visible)).flatMap (·.items) =
      (pages.flatMap (·.items)).filter fun r => visible r.name := by
  rw [List.flatMap_map, List.filter_flatMap]
  rfl

/-- A name and a resource belong together in the list of what is read from some entries exactly if
the resource is read from the entry of the name. -/
theorem Named.mem_read_iff {s : BlobStore (StateM σ) α} {entries : SortedMap String Entry}
    (hNamed : Named entries) {items : List (Resource α)}
    (hItems : items.map .ok = entries.values.map s.read) {name : String} {r : Resource α} :
    r ∈ items ∧ r.name = name ↔
      ∃ entry, entries.get? name = some entry ∧ s.read entry = .ok r := by
  constructor
  · rintro ⟨hMem, rfl⟩
    obtain ⟨entry, hEntry, hRead⟩ : ∃ entry ∈ entries.values, s.read entry = .ok r :=
      List.mem_map.1 (hItems ▸ List.mem_map_of_mem hMem)
    rw [BlobStore.read_name hRead]
    exact ⟨entry, hNamed.mem_values.1 hEntry, hRead⟩
  · rintro ⟨entry, hStored, hRead⟩
    have hName : entry.name = name := hNamed name entry hStored
    have hEntry : entry ∈ entries.values := hNamed.mem_values.2 (hName.symm ▸ hStored)
    have hOk : (Except.ok r : Except StoreError (Resource α)) ∈ items.map .ok := by
      rw [hItems]
      exact List.mem_map.2 ⟨entry, hEntry, hRead⟩
    obtain ⟨item, hItem, hEq⟩ := List.mem_map.1 hOk
    obtain rfl := Except.ok.inj hEq
    exact ⟨hItem, (BlobStore.read_name hRead).trans hName⟩

/-- Every page of a scan but the last one leads on to the next. -/
theorem Pages.leads_on {m : Type → Type} {s : BlobStore m α} {limit gaps : Nat}
    {start : Option String} {visits : Visits α} (h : Pages s limit gaps start visits) :
    ∀ visit ∈ visits.dropLast, ∃ page, visit.2 = .ok page ∧ page.continueToken ≠ none := by
  induction h with
  | cut start => exact fun _ hMem => by cases hMem
  | last => exact fun _ hMem => by cases hMem
  | next gaps start c page front last back rest _ _ _ hToken _ ih =>
    intro visit hMem
    cases rest with
    | nil => cases hMem
    | cons next rest =>
      rcases List.mem_cons.1 hMem with rfl | hRest
      · exact ⟨page, rfl, hToken⟩
      · exact ih visit hRest

/-- Let all entries of a container be readable, and let the authorizer answer as it does now,
whenever it is asked; about a list it allows the actor.  Then a scan with enough requests gets the
pages of the store below, each with its token and without the items that the actor may not get, and
comes to the last page.  These pages show exactly what the actor can get, before, during and after
the scan. -/
theorem list_shows_what_get_shows (s : BlobStore (StateM σ) α) (p : Part σ MemoryContainer)
    (hContainer : s.container = MemoryContainer.container p.cell)
    (hGet : s.capabilities.supports .get = true) (hList : s.capabilities.supports .list = true)
    (capacity : Nat) (history : List ContainerStep) (st : σ)
    (hHistory : p.read st = ContainerStep.runAll history (.ofCapacity capacity))
    (hReadable : s.Readable (p.read st)) (authorizer : Authorizer (StateM σ))
    (hSteady : authorizer.IsSteady p st) (call : Call)
    (hListed : authorizer.Allows st (.forCollection call.actor .list s.collection))
    (watchBuffer : Nat) (options : ListOptions) (requests : Nat)
    (hEnough : pageCount (s.config.pageSize options.limit) (p.read st).entries.size ≤ requests) :
    let store := s.store.authorized authorizer watchBuffer
    let scan := store.scan call options requests none st
    let showing := Page.showing (authorizer.sees st call.actor s.collection)
    ∃ pages : List (Page (Resource α)),
      (s.store.scan call options requests none st).1 = pages.map .ok ∧
      scan.1 = pages.map (fun page => .ok (showing page)) ∧
      pages.length = pageCount (s.config.pageSize options.limit) (p.read st).entries.size ∧
      (∀ page ∈ pages.dropLast, page.continueToken ≠ none) ∧
      (∃ last, pages.getLast? = some last ∧ last.continueToken = none) ∧
      authorizer.Asked st scan.2 ∧
      ∀ t, authorizer.Asked st t → Shows store call t (pages.map showing) := by
  intro store scan showing
  have hNamed : Named (p.read st).entries := by
    rw [hHistory]
    exact (ContainerStep.grows_run (MemoryContainer.sound_ofCapacity capacity) history).1.named
  obtain ⟨-, hPages⟩ := BlobStore.pages_scan_store hContainer hList call options hNamed hReadable
    requests none
  obtain ⟨u, hEnd, hScan⟩ := BlobStore.scan_authorized hContainer hList hSteady hListed watchBuffer
    options requests none .start
  -- every request of the store below is answered by a page
  obtain ⟨pages, -, hAnswers⟩ := mapM_of_forall_ok (f := id)
    (l := (s.store.scan call options requests none st).1) fun answer hMem => by
      obtain ⟨page, hPage, -⟩ := hPages.answered _ (List.mem_map_of_mem hMem)
      exact ⟨page, hPage⟩
  rw [List.map_id] at hAnswers
  rw [Option.map_none, ← hAnswers, List.map_map] at hPages
  have hSize : ((p.read st).entries.after none).length = (p.read st).entries.size :=
    List.length_map ..
  have hQuiet : ∀ visit ∈ pages.map ((p.read st, ·) ∘ Except.ok (ε := StoreError)),
      visit.1.entries = (p.read st).entries := fun visit hMem => by
    obtain ⟨page, -, rfl⟩ := List.mem_map.1 hMem
    rfl
  obtain ⟨hCount, ⟨c, last, hLast, hToken⟩, hItems⟩ := hPages.quiet StoreConfig.room_pos hQuiet
    (by rwa [hSize, StoreConfig.pageCount_room])
  have hVisited : Visits.items (pages.map ((p.read st, ·) ∘ Except.ok (ε := StoreError))) =
      pages.flatMap (·.items) := by
    rw [Visits.items, List.flatMap_map]
    rfl
  rw [List.length_map, hSize, StoreConfig.pageCount_room] at hCount
  rw [hVisited] at hItems
  refine ⟨pages, hAnswers.symm, ?_, hCount, fun page hMem => ?_, ?_, ?_, fun t hAsked => ?_⟩
  · simp only [scan, store, hScan, ← hAnswers, List.map_map]
    rfl
  · obtain ⟨page', hOk, hLeads⟩ := hPages.leads_on (p.read st, .ok page) (by
      rw [← List.map_dropLast]
      exact List.mem_map_of_mem hMem)
    obtain rfl := Except.ok.inj hOk
    exact hLeads
  · rw [List.getLast?_map] at hLast
    obtain ⟨page, hPage, hEq⟩ := Option.map_eq_some_iff.1 hLast
    obtain rfl : page = last := Except.ok.inj (Prod.mk.inj hEq).2
    exact ⟨page, hPage, hToken⟩
  · simp only [scan, store, hScan]
    exact hEnd
  · refine ⟨?_, fun name r => ?_⟩
    · have hAscending := hPages.ascending
      rw [Visits.names, hVisited] at hAscending
      rw [items_showing]
      exact hAscending.sublist (List.Sublist.map _ List.filter_sublist)
    · rw [BlobStore.get_authorized hContainer hSteady watchBuffer hGet hAsked, items_showing,
        List.mem_filter, and_right_comm, hNamed.mem_read_iff hItems, and_comm]
      refine and_congr_left fun hEntry => ?_
      obtain ⟨entry, hStored, hRead⟩ := hEntry
      rw [BlobStore.read_name hRead, hNamed name entry hStored]

/-! ## A scan past hidden entries -/

def Authorizer.patchy : Authorizer (StateM MemoryContainer) := fun q =>
  if q.verb = .get ∧ q.coordinates.name = some "d" then throw (.unavailable "down")
  else if q.verb = .get ∧ q.coordinates.name ∈ [some "a", some "b"] then pure (.deny "hidden")
  else pure .allow

theorem Authorizer.isPassive_patchy : patchy.IsPassive := by
  intro q st
  unfold patchy
  split
  · rfl
  · split <;> rfl

/-- Nothing is left of the first page of two. -/
theorem list_shows_what_get_shows_patchy :
    let call : Call := ⟨⟨"eve", []⟩, ⟨0, 0⟩, "1", "abcde"⟩
    let history := ["a", "b", "c", "d", "e"].map ContainerStep.creating
    let st := ContainerStep.runAll history (.ofCapacity 8)
    let store := BlobStore.inPairs.store.authorized .patchy
    let scan := store.scan call { limit := some 5 } 3 none st
    Authorizer.patchy.Allows st (.forCollection call.actor .list .organization) ∧
    (∃ pages, scan.1 = pages.map .ok ∧ pages.length = 3 ∧ Shows store call st pages) ∧
    scan.1.map (fun answer => answer.toOption.map fun page =>
      (page.items.map (·.name), page.continueToken.isSome)) =
        [some ([], true), some (["c"], true), some (["e"], false)] ∧
    problem? (runOn (store.get call "d") st).1 =
      some (.internal "authorizer failed: Authorizer unavailable: down") := by
  intro call history st store scan
  have hListed : Authorizer.patchy.Allows st (.forCollection call.actor .list .organization) := rfl
  have hReadable : BlobStore.inPairs.Readable st := fun _ entry _ => ⟨entry.bytes, rfl⟩
  obtain ⟨pages, -, hScan, hLength, -, -, -, hShows⟩ := list_shows_what_get_shows
    BlobStore.inPairs .whole rfl rfl rfl 8 history st rfl hReadable .patchy
    (Authorizer.isPassive_patchy.isSteady .whole st) call hListed Channel.defaultCapacity
    { limit := some 5 } 3 (by decide +kernel)
  refine ⟨hListed, ⟨_, ?_, ?_, hShows st .start⟩, by decide +kernel, by decide +kernel⟩
  · rw [List.map_map]
    exact hScan
  · rw [List.length_map, hLength]
    decide +kernel

end Tenancy
