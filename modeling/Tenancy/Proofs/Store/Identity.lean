import Tenancy.Proofs.Store.Restriction
import Tenancy.Proofs.Store.Scan
import Tenancy.Proofs.Store.WatchStream

/-!
# Identity of resources

A container gives an entry its identifier and its time of creation when the entry is created, and no
later write touches them.  So what a store shows of a name has the identity of the creation that
began the current lifetime of the name, and the lifetime ends with the removal of the name.

* `Deed`: all that a request does to a container, and the metadata that it shows;
  `BlobStore.deed_request` says that it does one of these.
* `Diary`: what has been seen in a run, and in which lifetime of its name.
* `Diary.Dated`: what is seen in a lifetime of a name has the identity of that creation of the name;
  `Diary.Dated.note` keeps it, `Diary.dated_run` is about runs.
* `identity_lasts_a_lifetime`: two things seen have one identifier exactly if they are of one
  lifetime of one name.
-/

namespace Tenancy

open BlobStore (metadataOf)

variable {σ τ α β γ : Type}

/-! ## Creations -/

def Event.addition? : Event β → Option β
  | .added object => some object
  | _ => none

namespace MemoryContainer

variable (c : MemoryContainer)

/-- The entries that were ever created, as they were then. -/
def births : List Entry := c.bus.log.toList.filterMap Event.addition?

def birthsOf (name : String) : List Entry := c.births.filter fun entry => entry.name = name

variable {c}

theorem births_congr {c' : MemoryContainer} (hLog : c'.bus.log = c.bus.log) :
    c'.births = c.births := by
  rw [births, births, hLog]

@[simp]
theorem births_afterCreate (birth : Birth) (name : String) (bytes : Bytes) :
    (c.afterCreate birth name bytes).births = c.births ++ [c.newEntry birth name bytes] := by
  simp [births, afterCreate, ChangeBus.publish, Event.addition?]

@[simp]
theorem births_afterPatch (name : String) (old : Entry) (bytes : Bytes) :
    (c.afterPatch name old bytes).births = c.births := by
  simp [births, afterPatch, ChangeBus.publish, Event.addition?]

@[simp]
theorem births_afterDelete (name : String) (old : Entry) :
    (c.afterDelete name old).births = c.births := by
  simp [births, afterDelete, ChangeBus.publish, Event.addition?]

/-- The metadata have the identity of the `lifetime`-th creation of their name. -/
def Bears (c : MemoryContainer) (lifetime : Nat) (m : ObjectMeta) : Prop :=
  ∃ entry, (c.birthsOf m.name)[lifetime]? = some entry ∧
    m.uid = some (.ofEntry entry.uid) ∧ m.creationTime = some entry.creationTime

theorem birthsOf_congr {c' : MemoryContainer} (hBirths : c'.births = c.births) (name : String) :
    c'.birthsOf name = c.birthsOf name := by
  rw [birthsOf, birthsOf, hBirths]

theorem birthsOf_afterCreate (birth : Birth) (name : String) (bytes : Bytes) (other : String) :
    (c.afterCreate birth name bytes).birthsOf other =
      c.birthsOf other ++ if other = name then [c.newEntry birth name bytes] else [] := by
  rw [birthsOf, births_afterCreate, List.filter_append, birthsOf]
  by_cases hOther : other = name
  · simp [newEntry, hOther]
  · simp [newEntry, hOther, Ne.symm hOther]

theorem birthsOf_prefix {c' : MemoryContainer} (hBirths : c.births <+: c'.births)
    (name : String) : c.birthsOf name <+: c'.birthsOf name := hBirths.filter _

/-- What was created once remains so. -/
theorem Bears.mono {c' : MemoryContainer} {lifetime : Nat} {m : ObjectMeta}
    (h : c.Bears lifetime m) (hBirths : c.births <+: c'.births) : c'.Bears lifetime m := by
  obtain ⟨entry, hEntry, hIdentity⟩ := h
  obtain ⟨later, hLater⟩ := birthsOf_prefix hBirths m.name
  refine ⟨entry, ?_, hIdentity⟩
  rw [← hLater, List.getElem?_append_left (List.getElem?_eq_some_iff.1 hEntry).1]
  exact hEntry

theorem Bears.congr {c' : MemoryContainer} {lifetime : Nat} {m : ObjectMeta}
    (h : c.Bears lifetime m) (hBirths : c'.births = c.births) : c'.Bears lifetime m :=
  h.mono (hBirths ▸ List.prefix_rfl)

end MemoryContainer

/-! ## What a request does -/

/-- The metadata in a result; an error has none. -/
def shownAs (metadata : β → List ObjectMeta) : Except StoreError β → List ObjectMeta
  | .ok b => metadata b
  | .error _ => []

@[simp]
theorem shownAs_map (metadata : γ → List ObjectMeta) (f : β → γ) (result : Except StoreError β) :
    shownAs metadata (result.map f) = shownAs (fun b => metadata (f b)) result := by
  cases result <;> rfl

/-- The metadata of the resources in a reply; a watch shows nothing yet. -/
def Reply.metadata : Reply σ α → List ObjectMeta
  | .outcome o => [o.1.metadata]
  | .page p => p.items.map (·.metadata)
  | .watch _ => []

namespace CollectionRequest

def on (p : Part σ τ) : CollectionRequest τ α → CollectionRequest σ α
  | .one q => .one (q.on p)
  | .list options => .list options
  | .watch options => .watch options

def removed? (q : CollectionRequest σ α) (result : Except StoreError β) : Option String :=
  match q, result with
  | .one (.delete name), .ok _ => some name
  | _, _ => none

end CollectionRequest

/-- All that a request can do to the container `c`: the metadata that it shows, the name that it
removes if it does, and the container afterwards. -/
inductive Deed (c : MemoryContainer) : List ObjectMeta → Option String → MemoryContainer → Prop
  | read (shown : List ObjectMeta) (c' : MemoryContainer) (hEntries : c'.entries = c.entries)
      (hLog : c'.bus.log = c.bus.log)
      (hShown : ∀ m ∈ shown, ∃ name entry,
        c.entries.get? name = some entry ∧ m = metadataOf entry) :
      Deed c shown none c'
  | created (birth : Birth) (name : String) (bytes : Bytes) (shown : List ObjectMeta)
      (hValid : isValidName name = true) (hAbsent : c.entries.get? name = none)
      (hShown : ∀ m ∈ shown, m = metadataOf (c.newEntry birth name bytes)) :
      Deed c shown none (c.afterCreate birth name bytes)
  | replaced (name : String) (old : Entry) (bytes : Bytes) (shown : List ObjectMeta)
      (hStored : c.entries.get? name = some old)
      (hShown : ∀ m ∈ shown, m = metadataOf (c.patchedEntry old bytes)) :
      Deed c shown none (c.afterPatch name old bytes)
  | removed (name : String) (old : Entry) (hStored : c.entries.get? name = some old) :
      Deed c [metadataOf old] (some name) (c.afterDelete name old)

theorem Deed.nothing (c : MemoryContainer) : Deed c [] none c :=
  .read [] c rfl rfl (List.forall_mem_nil _)

namespace CollectionRequest

theorem removed?_error (q : CollectionRequest σ α) (e : StoreError) :
    q.removed? (.error e : Except StoreError β) = none := by
  match q with
  | .one (.get _) | .one (.write _) | .one (.delete _) | .list _ | .watch _ => rfl

theorem removed?_map (q : CollectionRequest σ α) (f : β → γ) (result : Except StoreError β) :
    q.removed? (result.map f) = q.removed? result := by
  cases result with
  | error e => exact (q.removed?_error e).trans (q.removed?_error e).symm
  | ok b =>
    match q with
    | .one (.get _) | .one (.write _) | .one (.delete _) | .list _ | .watch _ => rfl

theorem runOn_unsupported {s : BlobStore (StateM (MemoryContainer × τ)) α}
    {q : CollectionRequest τ α} (hUnsupported : s.capabilities.supports q.verb = false)
    (call : Call) (st : MemoryContainer × τ) :
    runOn ((q.on ofMutations).run s.store call) st = (.error (.methodNotSupported q.verb), st) := by
  have hVerb : (q.on ofMutations).verb = q.verb := by
    cases q with
    | one q => exact q.verb_on ofMutations
    | list options | watch options => rfl
  rw [runOn_refused (by rwa [hVerb]), hVerb]

end CollectionRequest

namespace BlobStore

theorem metadata_of_read {m : Type → Type} {s : BlobStore m α} {entry : Entry} {r : Resource α}
    (hRead : s.read entry = .ok r) : r.metadata = metadataOf entry := by
  obtain ⟨payload, -, rfl⟩ := read_eq_ok_iff.1 hRead
  rfl

theorem eq_of_mem_shownAs_read {m : Type → Type} {s : BlobStore m α} {entry : Entry}
    {shown : ObjectMeta} (hMem : shown ∈ shownAs (fun r => [r.metadata]) (s.read entry)) :
    shown = metadataOf entry := by
  cases hRead : s.read entry with
  | error e =>
    rw [hRead] at hMem
    cases hMem
  | ok r =>
    rw [hRead] at hMem
    exact (List.mem_singleton.1 hMem).trans (metadata_of_read hRead)

variable {s : BlobStore (StateM (MemoryContainer × τ)) α}
  (hContainer : s.container = MemoryContainer.container besideMutations.cell)
  (call : Call) (c : MemoryContainer) (t : τ)

include hContainer

theorem deed_get (hSupported : s.capabilities.supports .get = true) (name : String) :
    Deed c (shownAs (fun r => [r.metadata]) (runOn (s.get name) (c, t)).1) none
      (runOn (s.get name) (c, t)).2.1 := by
  rw [runOn_get hContainer hSupported]
  simp only [besideMutations]
  cases hStored : c.entries.get? name with
  | none => exact .nothing c
  | some entry =>
    exact .read _ _ rfl rfl fun m hMem => ⟨name, entry, hStored, eq_of_mem_shownAs_read hMem⟩

theorem deed_createEntry (birth : Birth) {name : String} (hValid : isValidName name = true)
    (payload : α) :
    Deed c (shownAs (fun r => [r.metadata]) (runOn (s.createEntry birth name payload) (c, t)).1)
      none (runOn (s.createEntry birth name payload) (c, t)).2.1 := by
  rw [runOn_createEntry hContainer]
  cases s.write payload with
  | error e => exact .nothing c
  | ok bytes =>
    cases hTaken : c.entries.contains name with
    | true =>
      simp only [besideMutations, hTaken, if_true]
      exact .nothing c
    | false =>
      simp only [besideMutations, hTaken, Bool.false_eq_true, if_false]
      exact .created birth name bytes _ hValid (SortedMap.contains_eq_false_iff.1 hTaken)
        fun _ => eq_of_mem_shownAs_read

theorem deed_create (hSupported : s.capabilities.supports .create = true) (r : Resource α) :
    Deed c (shownAs (fun r => [r.metadata]) (runOn (s.create call r) (c, t)).1) none
      (runOn (s.create call r) (c, t)).2.1 := by
  rw [runOn_create hSupported]
  cases hName : checkedName (assignedName call r.metadata) with
  | error e => exact .nothing c
  | ok _ => exact deed_createEntry hContainer c t call.birth (checkedName_eq_ok hName) r.payload

theorem deed_replace {name : String} {old : Entry} (hStored : c.entries.get? name = some old)
    (was : α) (mutate : Mutation (StateM τ) α) :
    let run := runOn (s.replace name was fun old => ofMutations.cell.access (mutate old)) (c, t)
    Deed c (shownAs (fun r => [r.metadata]) run.1) none run.2.1 := by
  rw [runOn_replace hContainer, runOn_cell]
  simp only [ofMutations, besideMutations]
  rcases runOn (mutate (some was)) t with ⟨e | payload, u⟩
  · exact .nothing c
  · simp only [hStored]
    cases s.write payload with
    | error e => exact .nothing c
    | ok bytes => exact .replaced name old bytes _ hStored fun _ => eq_of_mem_shownAs_read

theorem deed_update (hSupported : s.capabilities.supports .update = true) (name : String)
    (mutate : Mutation (StateM τ) α) (allowCreate : Bool) :
    let run := runOn (s.update call name (fun old => ofMutations.cell.access (mutate old))
      allowCreate) (c, t)
    Deed c (shownAs (fun o => [o.1.metadata]) run.1) none run.2.1 := by
  rw [runOn_update hContainer hSupported]
  simp only [besideMutations]
  cases hStored : c.entries.get? name with
  | some old =>
    dsimp only
    cases s.read old with
    | error e => exact .nothing c
    | ok was =>
      dsimp only
      rw [shownAs_map]
      exact deed_replace hContainer c t hStored was.payload mutate
  | none =>
    cases allowCreate with
    | false => exact .nothing c
    | true =>
      simp only [if_true]
      cases hName : checkedName name with
      | error e => exact .nothing c
      | ok _ =>
        simp only [runOn_cell, ofMutations]
        rcases runOn (mutate none) t with ⟨e | payload, u⟩
        · exact .nothing c
        · dsimp only
          rw [shownAs_map]
          exact deed_createEntry hContainer c u call.birth (checkedName_eq_ok hName) payload

theorem deed_list (hSupported : s.capabilities.supports .list = true) (options : ListOptions) :
    Deed c (shownAs (fun page => page.items.map (·.metadata)) (runOn (s.list options) (c, t)).1)
      none (runOn (s.list options) (c, t)).2.1 := by
  rw [runOn_list hContainer hSupported]
  simp only [besideMutations]
  rcases c.runOn_list_cases { options with limit := some (s.config.pageSize options.limit) } with
    ⟨e, hRun⟩ | ⟨start, hRun⟩
  · rw [hRun]
    exact .nothing c
  · rw [hRun]
    dsimp only
    rw [shownAs_map]
    refine .read _ _ rfl rfl fun m hMem => ?_
    cases hItems : (MemoryContainer.page (toString c.revision)
        (some (s.config.pageSize options.limit)) (c.entries.after start)).items.mapM s.read with
    | error e =>
      rw [hItems] at hMem
      cases hMem
    | ok items =>
      rw [hItems] at hMem
      obtain ⟨item, hItem, rfl⟩ := List.mem_map.1 hMem
      obtain ⟨entry, hEntry, hRead⟩ := List.mem_map.1
        (map_ok_of_mapM_eq_ok hItems ▸ List.mem_map_of_mem hItem)
      obtain ⟨name, hStored⟩ := SortedMap.mem_values.1
        (SortedMap.mem_values_of_mem_after (MemoryContainer.mem_of_mem_page hEntry))
      exact ⟨name, entry, hStored, metadata_of_read hRead⟩

theorem deed_watch (hSupported : s.capabilities.supports .watch = true) (options : ListOptions) :
    Deed c (shownAs (fun _ => []) (runOn (s.watch options) (c, t)).1) none
      (runOn (s.watch options) (c, t)).2.1 := by
  rw [runOn_watch hContainer hSupported]
  exact .read _ _ rfl rfl (List.forall_mem_nil _)

theorem deed_delete (hSupported : s.capabilities.supports .delete = true) (name : String) :
    let run := runOn (s.delete name) (c, t)
    Deed c (shownAs (fun o => [o.1.metadata]) run.1)
      (CollectionRequest.removed? (σ := τ) (α := α) (.one (.delete name)) run.1) run.2.1 := by
  rw [runOn_delete hContainer hSupported]
  simp only [besideMutations]
  cases hStored : c.entries.get? name with
  | none => exact .nothing c
  | some old =>
    dsimp only
    cases hRead : s.read old with
    | error e => exact .nothing c
    | ok was =>
      have hWas := metadata_of_read hRead
      dsimp only [shownAs]
      rw [hWas]
      exact .removed name old hStored

theorem deed_write (w : Write τ α)
    (hSupported : s.capabilities.supports (StoreRequest.write w).verb = true) :
    let run := runOn ((w.on ofMutations).run s.store call) (c, t)
    Deed c (shownAs (fun o => [o.1.metadata]) run.1) none run.2.1 := by
  cases w with
  | create r =>
    have hCreate := deed_create hContainer call c t hSupported r
    simp only [Write.on, Write.run, store, runOn_map, shownAs_map]
    exact hCreate
  | update name mutate allowCreate =>
    exact deed_update hContainer call c t hSupported name mutate allowCreate

/-- What a request does, by its reply. -/
theorem deed_request (q : CollectionRequest τ α) :
    Deed c (shownAs Reply.metadata (runOn ((q.on ofMutations).run s.store call) (c, t)).1)
      (q.removed? (runOn ((q.on ofMutations).run s.store call) (c, t)).1)
      (runOn ((q.on ofMutations).run s.store call) (c, t)).2.1 := by
  cases hSupported : s.capabilities.supports q.verb with
  | false =>
    rw [CollectionRequest.runOn_unsupported hSupported, CollectionRequest.removed?_error]
    exact .nothing c
  | true =>
    match q with
    | .one (.get name) =>
      have hGet := deed_get hContainer c t hSupported name
      simp only [CollectionRequest.on, CollectionRequest.run, StoreRequest.on, StoreRequest.run,
        store, runOn_map, shownAs_map]
      exact hGet
    | .one (.write w) =>
      have hWrite := deed_write hContainer call c t w hSupported
      simp only [CollectionRequest.on, CollectionRequest.run, StoreRequest.on, StoreRequest.run,
        runOn_map, shownAs_map]
      exact hWrite
    | .one (.delete name) =>
      have hDelete := deed_delete hContainer c t hSupported name
      simp only [CollectionRequest.on, CollectionRequest.run, StoreRequest.on, StoreRequest.run,
        store, runOn_map, shownAs_map]
      rw [CollectionRequest.removed?_map]
      exact hDelete
    | .list options =>
      have hList := deed_list hContainer c t hSupported options
      simp only [CollectionRequest.on, CollectionRequest.run, store, runOn_map, shownAs_map]
      exact hList
    | .watch options =>
      have hWatch := deed_watch hContainer c t hSupported options
      simp only [CollectionRequest.on, CollectionRequest.run, store, runOn_map, shownAs_map]
      exact hWatch

end BlobStore

/-! ## Runs -/

/-- Metadata that were seen, and how often their name had been removed before. -/
structure Sighting where
  lifetime : Nat
  metadata : ObjectMeta
  deriving DecidableEq

/-- How often each name has been removed, after a request that may have removed one. -/
def countRemoval (removed : Option String) (removals : String → Nat) (name : String) : Nat :=
  if removed = some name then removals name + 1 else removals name

@[simp]
theorem countRemoval_self (removals : String → Nat) (name : String) :
    countRemoval (some name) removals name = removals name + 1 := if_pos rfl

theorem countRemoval_of_ne {name other : String} (hNe : other ≠ name) (removals : String → Nat) :
    countRemoval (some name) removals other = removals other :=
  if_neg fun hEq => hNe (Option.some.inj hEq).symm

/-- A name that is taken has been created once more than it was removed, any other as often, and an
entry has the identity of the last creation of its name. -/
structure Counted (c : MemoryContainer) (removals : String → Nat) : Prop where
  named : Named c.entries
  taken : ∀ {name entry}, c.entries.get? name = some entry →
    (c.birthsOf name).length = removals name + 1 ∧ c.Bears (removals name) (metadataOf entry)
  free : ∀ {name}, c.entries.get? name = none → (c.birthsOf name).length = removals name

theorem counted_ofCapacity (capacity : Nat) : Counted (.ofCapacity capacity) fun _ => 0 where
  named _ _ hGet := by cases hGet
  taken hGet := by cases hGet
  free _ := rfl

namespace Deed

variable {c c' : MemoryContainer} {shown : List ObjectMeta} {removed : Option String}
  {removals : String → Nat}

theorem births_prefix (h : Deed c shown removed c') : c.births <+: c'.births := by
  cases h with
  | read _ _ _ hLog => rw [MemoryContainer.births_congr hLog]
  | created => rw [MemoryContainer.births_afterCreate]; exact List.prefix_append _ _
  | replaced => rw [MemoryContainer.births_afterPatch]
  | removed => rw [MemoryContainer.births_afterDelete]

/-- A creation of a free name begins the lifetime that the removals of the name count. -/
theorem bears_newEntry (hCounted : Counted c removals) (birth : Birth) {name : String}
    (bytes : Bytes) (hAbsent : c.entries.get? name = none) :
    (c.afterCreate birth name bytes).Bears (removals name)
      (metadataOf (c.newEntry birth name bytes)) := by
  refine ⟨c.newEntry birth name bytes, ?_, rfl, rfl⟩
  have hName : (metadataOf (c.newEntry birth name bytes)).name = name := rfl
  rw [hName, MemoryContainer.birthsOf_afterCreate, if_pos rfl, ← hCounted.free hAbsent,
    List.getElem?_concat_length]

/-- What a request shows is of the lifetime in which the request finds the name. -/
theorem bears_shown (h : Deed c shown removed c') (hCounted : Counted c removals) {m : ObjectMeta}
    (hMem : m ∈ shown) : c'.Bears (removals m.name) m := by
  have hPrefix := h.births_prefix
  cases h with
  | read _ _ _ _ hShown =>
    obtain ⟨name, entry, hStored, rfl⟩ := hShown m hMem
    have hName : (metadataOf entry).name = name := hCounted.named name entry hStored
    rw [hName]
    exact (hCounted.taken hStored).2.mono hPrefix
  | created birth name bytes _ _ hAbsent hShown =>
    obtain rfl := hShown m hMem
    exact bears_newEntry hCounted birth bytes hAbsent
  | replaced name old bytes _ hStored hShown =>
    obtain rfl := hShown m hMem
    have hName : (metadataOf (c.patchedEntry old bytes)).name = name :=
      hCounted.named name old hStored
    rw [hName]
    exact (hCounted.taken hStored).2.mono hPrefix
  | removed name old hStored =>
    obtain rfl := List.mem_singleton.1 hMem
    have hName : (metadataOf old).name = name := hCounted.named name old hStored
    rw [hName]
    exact (hCounted.taken hStored).2.mono hPrefix

theorem counted_created (hCounted : Counted c removals) (birth : Birth) {name : String}
    (bytes : Bytes) (hAbsent : c.entries.get? name = none) :
    Counted (c.afterCreate birth name bytes) removals where
  named := hCounted.named.insert rfl
  taken {other entry} hGet := by
    rw [MemoryContainer.afterCreate_entries, SortedMap.get?_insert] at hGet
    rw [MemoryContainer.birthsOf_afterCreate]
    split at hGet
    · rename_i hOther
      obtain rfl := Option.some.inj hGet
      subst hOther
      refine ⟨?_, bears_newEntry hCounted birth bytes hAbsent⟩
      rw [if_pos rfl, List.length_append, List.length_singleton, hCounted.free hAbsent]
    · rename_i hOther
      rw [if_neg hOther, List.append_nil]
      refine (hCounted.taken hGet).imp_right (·.mono ?_)
      rw [MemoryContainer.births_afterCreate]
      exact List.prefix_append _ _
  free {other} hGet := by
    rw [MemoryContainer.afterCreate_entries, SortedMap.get?_insert] at hGet
    split at hGet
    · cases hGet
    · rename_i hOther
      rw [MemoryContainer.birthsOf_afterCreate, if_neg hOther, List.append_nil]
      exact hCounted.free hGet

theorem counted_replaced (hCounted : Counted c removals) {name : String} {old : Entry}
    (bytes : Bytes) (hStored : c.entries.get? name = some old) :
    Counted (c.afterPatch name old bytes) removals := by
  have hBirths : (c.afterPatch name old bytes).births = c.births :=
    MemoryContainer.births_afterPatch ..
  refine ⟨hCounted.named.insert (hCounted.named name old hStored), fun {other entry} hGet => ?_,
    fun {other} hGet => ?_⟩
  · rw [MemoryContainer.afterPatch_entries, SortedMap.get?_insert] at hGet
    rw [MemoryContainer.birthsOf_congr hBirths]
    split at hGet
    · rename_i hOther
      obtain rfl := Option.some.inj hGet
      subst hOther
      exact (hCounted.taken hStored).imp_right (·.congr hBirths)
    · exact (hCounted.taken hGet).imp_right (·.congr hBirths)
  · rw [MemoryContainer.afterPatch_entries, SortedMap.get?_insert] at hGet
    rw [MemoryContainer.birthsOf_congr hBirths]
    split at hGet
    · cases hGet
    · exact hCounted.free hGet

theorem counted_removed (hCounted : Counted c removals) {name : String} {old : Entry}
    (hStored : c.entries.get? name = some old) :
    Counted (c.afterDelete name old) (countRemoval (some name) removals) := by
  have hBirths : (c.afterDelete name old).births = c.births :=
    MemoryContainer.births_afterDelete ..
  refine ⟨hCounted.named.erase name, fun {other entry} hGet => ?_, fun {other} hGet => ?_⟩
  · rw [MemoryContainer.afterDelete_entries, SortedMap.get?_erase] at hGet
    split at hGet
    · cases hGet
    · rename_i hOther
      rw [countRemoval_of_ne hOther, MemoryContainer.birthsOf_congr hBirths]
      exact (hCounted.taken hGet).imp_right (·.congr hBirths)
  · rw [MemoryContainer.birthsOf_congr hBirths]
    by_cases hOther : other = name
    · rw [hOther, countRemoval_self]
      exact (hCounted.taken hStored).1
    · rw [countRemoval_of_ne hOther]
      rw [MemoryContainer.afterDelete_entries, SortedMap.get?_erase, if_neg hOther] at hGet
      exact hCounted.free hGet

theorem counted (h : Deed c shown removed c') (hCounted : Counted c removals) :
    Counted c' (countRemoval removed removals) := by
  cases h with
  | read _ _ hEntries hLog =>
    have hBirths := MemoryContainer.births_congr hLog
    refine ⟨hEntries ▸ hCounted.named, fun hGet => ?_, fun hGet => ?_⟩
    · rw [MemoryContainer.birthsOf_congr hBirths]
      exact (hCounted.taken (hEntries ▸ hGet)).imp_right (·.congr hBirths)
    · rw [MemoryContainer.birthsOf_congr hBirths]
      exact hCounted.free (hEntries ▸ hGet)
  | created birth name bytes _ _ hAbsent => exact counted_created hCounted birth bytes hAbsent
  | replaced name old bytes _ hStored => exact counted_replaced hCounted bytes hStored
  | removed name old hStored => exact counted_removed hCounted hStored

end Deed

/-- A run as far as it has come: the container, the state of the mutations, how often each name was
removed, and what was shown by the requests or was stored after one of them. -/
structure Diary (τ : Type) where
  container : MemoryContainer
  others : τ
  removals : String → Nat
  seen : List Sighting

namespace Diary

def blank (capacity : Nat) (t : τ) : Diary τ := ⟨.ofCapacity capacity, t, fun _ => 0, []⟩

/-- The diary after a request that has shown some metadata and may have removed a name, and has left
the container and the state of the mutations as given. -/
def note (d : Diary τ) (shown : List ObjectMeta) (removed : Option String) (c : MemoryContainer)
    (t : τ) : Diary τ where
  container := c
  others := t
  removals := countRemoval removed d.removals
  seen := d.seen ++ shown.map (fun m => ⟨d.removals m.name, m⟩) ++
    c.entries.values.map fun entry => ⟨countRemoval removed d.removals entry.name, metadataOf entry⟩

def after (s : BlobStore (StateM (MemoryContainer × τ)) α) (d : Diary τ)
    (request : Call × CollectionRequest τ α) : Diary τ :=
  let run := runOn ((request.2.on ofMutations).run s.store request.1) (d.container, d.others)
  d.note (shownAs Reply.metadata run.1) (request.2.removed? run.1) run.2.1 run.2.2

def run (s : BlobStore (StateM (MemoryContainer × τ)) α)
    (requests : List (Call × CollectionRequest τ α)) (d : Diary τ) : Diary τ :=
  requests.foldl (after s) d

/-- What was seen in a lifetime of a name has the identity of the creation that began it. -/
structure Dated (d : Diary τ) : Prop where
  counted : Counted d.container d.removals
  seen : ∀ x ∈ d.seen, d.container.Bears x.lifetime x.metadata

theorem Dated.note {d : Diary τ} (h : d.Dated) {shown : List ObjectMeta} {removed : Option String}
    {c : MemoryContainer} (hDeed : Deed d.container shown removed c) (t : τ) :
    (d.note shown removed c t).Dated where
  counted := hDeed.counted h.counted
  seen x hMem := by
    have hCounted := hDeed.counted h.counted
    rcases List.mem_append.1 hMem with hMem | hStored
    · rcases List.mem_append.1 hMem with hOld | hShown
      · exact (h.seen x hOld).mono hDeed.births_prefix
      · obtain ⟨m, hNew, rfl⟩ := List.mem_map.1 hShown
        exact hDeed.bears_shown h.counted hNew
    · obtain ⟨entry, hEntry, rfl⟩ := List.mem_map.1 hStored
      exact (hCounted.taken (hCounted.named.mem_values.1 hEntry)).2

theorem dated_run {s : BlobStore (StateM (MemoryContainer × τ)) α}
    (hContainer : s.container = MemoryContainer.container besideMutations.cell)
    (requests : List (Call × CollectionRequest τ α)) {d : Diary τ} (h : d.Dated) :
    (run s requests d).Dated := by
  induction requests generalizing d with
  | nil => exact h
  | cons request requests ih =>
    exact ih (h.note (BlobStore.deed_request hContainer request.1 d.container d.others request.2) _)

end Diary

/-! ## Identifiers -/

namespace MemoryContainer

variable {c : MemoryContainer} {m m' : ObjectMeta} {lifetime lifetime' : Nat}

/-- Of one lifetime of one name there is one identity. -/
theorem Bears.eq_of_lifetime (h : c.Bears lifetime m) (h' : c.Bears lifetime' m')
    (hName : m.name = m'.name) (hLifetime : lifetime = lifetime') :
    m.uid = m'.uid ∧ m.creationTime = m'.creationTime := by
  obtain ⟨entry, hEntry, hUid, hTime⟩ := h
  obtain ⟨entry', hEntry', hUid', hTime'⟩ := h'
  rw [hName, hLifetime, hEntry', Option.some.injEq] at hEntry
  subst hEntry
  exact ⟨hUid.trans hUid'.symm, hTime.trans hTime'.symm⟩

/-- The creation that the identity is from. -/
theorem Bears.birth (h : c.Bears lifetime m) : ∃ entry ∈ c.births, entry.name = m.name ∧
    (c.birthsOf m.name)[lifetime]? = some entry ∧ m.uid = some (.ofEntry entry.uid) ∧
      m.creationTime = some entry.creationTime := by
  obtain ⟨entry, hEntry, hUid, hTime⟩ := h
  obtain ⟨hMem, hName⟩ := List.mem_filter.1 (List.mem_of_getElem? hEntry)
  exact ⟨entry, hMem, of_decide_eq_true hName, hEntry, hUid, hTime⟩

/-- If no identifier was given twice, and different ones are told apart, an identifier tells the
name and the lifetime. -/
theorem Bears.lifetime_of_uid (hFresh : (c.births.map (·.uid)).Nodup)
    (hInjective : ∀ a ∈ c.births, ∀ b ∈ c.births,
      Uid.ofEntry a.uid = Uid.ofEntry b.uid → a.uid = b.uid)
    (h : c.Bears lifetime m) (h' : c.Bears lifetime' m') (hUid : m.uid = m'.uid) :
    m.name = m'.name ∧ lifetime = lifetime' := by
  obtain ⟨entry, hMem, hName, hEntry, hFrom, -⟩ := h.birth
  obtain ⟨entry', hMem', hName', hEntry', hFrom', -⟩ := h'.birth
  rw [hFrom, hFrom', Option.some.injEq] at hUid
  have hSame : entry = entry' :=
    List.inj_on_of_nodup_map hFresh hMem hMem' (hInjective entry hMem entry' hMem' hUid)
  subst hSame
  have hNames : m.name = m'.name := hName.symm.trans hName'
  refine ⟨hNames, ?_⟩
  rw [← hNames] at hEntry'
  -- one entry has one place among the creations of its name
  have hNodup : (c.birthsOf m.name).Nodup := (List.Nodup.of_map _ hFresh).filter _
  exact (List.getElem?_inj (List.getElem?_eq_some_iff.1 hEntry).1 hNodup).1
    (hEntry.trans hEntry'.symm)

end MemoryContainer

theorem BlobStore.assignedName_of_name (call : Call) {metadata : ObjectMeta}
    (hName : metadata.name ≠ "") : assignedName call metadata = metadata.name := by
  have hEmpty : metadata.name.isEmpty = false := by simpa using hName
  rw [assignedName]
  cases metadata.generateName with
  | none => rfl
  | some stem => simp [hEmpty]

/-- What a creation does depends on the payload and on the name, or on the stem if there is no name,
and on nothing else that the caller says of the resource. -/
theorem BlobStore.create_congr {m : Type → Type} [Monad m] (s : BlobStore m α) (call : Call)
    {r r' : Resource α} (hPayload : r.payload = r'.payload) (hName : r.name = r'.name)
    (hStem : r.name = "" → r.metadata.generateName = r'.metadata.generateName) :
    s.create call r = s.create call r' := by
  have hNames : r.metadata.name = r'.metadata.name := hName
  have hAssigned : assignedName call r.metadata = assignedName call r'.metadata := by
    by_cases hEmpty : r.name = ""
    · rw [assignedName, assignedName, hStem hEmpty, hNames]
    · rw [assignedName_of_name call hEmpty, assignedName_of_name call (hNames ▸ hEmpty), hNames]
  rw [create, create, hAssigned, hPayload]

/-- Let no identifier be given to two entries at their creations, and let the identifiers derived
from them be different.  In every run of requests to a store over a new container:

* two resources that were shown or stored have the same identifier exactly if they are of the same
  lifetime of the same name, and then they have the same time of creation;
* the identifier is derived from that of an entry as it was created, and the time is that of the
  entry; they are the same for the entry that is stored, as long as the name is not removed;
* a creation gives the same result and comes to the same state whatever identifier, time or version
  the caller has put in, and whatever stem if there is a name. -/
theorem identity_lasts_a_lifetime (s : BlobStore (StateM (MemoryContainer × τ)) α)
    (hContainer : s.container = MemoryContainer.container besideMutations.cell) (capacity : Nat)
    (t : τ) (requests : List (Call × CollectionRequest τ α)) {d : Diary τ}
    (hRun : Diary.run s requests (.blank capacity t) = d)
    (hFresh : (d.container.births.map (·.uid)).Nodup)
    (hInjective : ∀ a ∈ d.container.births, ∀ b ∈ d.container.births,
      Uid.ofEntry a.uid = Uid.ofEntry b.uid → a.uid = b.uid) :
    (∀ x ∈ d.seen, ∀ y ∈ d.seen,
      (x.metadata.uid = y.metadata.uid ↔
        x.metadata.name = y.metadata.name ∧ x.lifetime = y.lifetime) ∧
      (x.metadata.uid = y.metadata.uid → x.metadata.creationTime = y.metadata.creationTime)) ∧
    (∀ x ∈ d.seen, ∃ entry ∈ d.container.births, entry.name = x.metadata.name ∧
      x.metadata.uid = some (.ofEntry entry.uid) ∧
        x.metadata.creationTime = some entry.creationTime) ∧
    (∀ x ∈ d.seen, ∀ entry, d.container.entries.get? x.metadata.name = some entry →
      x.lifetime = d.removals x.metadata.name → x.metadata.uid = some (.ofEntry entry.uid) ∧
        x.metadata.creationTime = some entry.creationTime) ∧
    ∀ (call : Call) (r r' : Resource α) (st : MemoryContainer × τ), r.payload = r'.payload →
      r.name = r'.name → (r.name = "" → r.metadata.generateName = r'.metadata.generateName) →
        runOn (s.create call r) st = runOn (s.create call r') st := by
  have h : d.Dated := hRun ▸ Diary.dated_run hContainer requests
    ⟨counted_ofCapacity capacity, List.forall_mem_nil _⟩
  refine ⟨fun x hx y hy => ?_, fun x hx => ?_, fun x hx entry hStored hNow => ?_,
    fun call r r' st hPayload hName hStem => by rw [s.create_congr call hPayload hName hStem]⟩
  · have hSame := (h.seen x hx).lifetime_of_uid hFresh hInjective (h.seen y hy)
    have hBack := (h.seen x hx).eq_of_lifetime (h.seen y hy)
    exact ⟨⟨hSame, fun hEq => (hBack hEq.1 hEq.2).1⟩,
      fun hUid => (hBack (hSame hUid).1 (hSame hUid).2).2⟩
  · obtain ⟨entry, hMem, hName, -, hIdentity⟩ := (h.seen x hx).birth
    exact ⟨entry, hMem, hName, hIdentity⟩
  · exact (h.seen x hx).eq_of_lifetime (h.counted.taken hStored).2
      (h.counted.named _ entry hStored).symm hNow

/-- A name is taken by a caller who claims another identity, changed, removed, and taken again by an
update; another name is generated in between. -/
def CollectionRequest.retaken : List (Call × CollectionRequest Unit Bytes) :=
  let call := fun (uid : String) (time : Int) => (⟨⟨"alice", []⟩, ⟨time, 0⟩, uid, "abcde"⟩ : Call)
  let claimed : ObjectMeta := { name := "a", uid := some ⟨7⟩, version := some "7" }
  [(call "1" 10, .one (.write (.create ⟨claimed, [1]⟩))),
    (call "2" 20, .one (.write (.update "a" (fun _ => return [2]) false))),
    (call "3" 30, .one (.write (.create (.generated "g-" [3])))),
    (call "4" 40, .one (.delete "a")), (call "5" 50, .one (.get "a")),
    (call "6" 60, .one (.write (.update "a" (fun _ => return [6]) true))), (call "7" 70, .list {})]

def BlobStore.ofBytes : BlobStore (StateM (MemoryContainer × Unit)) Bytes :=
  ⟨.organization, MemoryContainer.container besideMutations.cell, .verbatim, {}, .all⟩

theorem identity_lasts_a_lifetime_retaken :
    let d := Diary.run .ofBytes CollectionRequest.retaken (.blank 4 ())
    (d.container.births.map (·.uid)).Nodup ∧
    (∀ a ∈ d.container.births, ∀ b ∈ d.container.births,
      Uid.ofEntry a.uid = Uid.ofEntry b.uid → a.uid = b.uid) ∧
    ∃ x ∈ d.seen, ∃ y ∈ d.seen, x.metadata.name = "a" ∧ x.lifetime = 0 ∧
      y.metadata.name = "a" ∧ y.lifetime = 1 ∧ x.metadata.uid ≠ y.metadata.uid := by
  intro d
  have hFresh : (d.container.births.map (·.uid)).Nodup := by decide +kernel
  have hInjective : ∀ a ∈ d.container.births, ∀ b ∈ d.container.births,
      Uid.ofEntry a.uid = Uid.ofEntry b.uid → a.uid = b.uid := by decide +kernel
  obtain ⟨hSame, -⟩ := identity_lasts_a_lifetime .ofBytes rfl 4 () CollectionRequest.retaken rfl
    hFresh hInjective
  have hFirst : ∃ x ∈ d.seen, x.metadata.name = "a" ∧ x.lifetime = 0 := by decide +kernel
  have hSecond : ∃ y ∈ d.seen, y.metadata.name = "a" ∧ y.lifetime = 1 := by decide +kernel
  obtain ⟨x, hx, hxName, hxLifetime⟩ := hFirst
  obtain ⟨y, hy, hyName, hyLifetime⟩ := hSecond
  refine ⟨hFresh, hInjective, x, hx, y, hy, hxName, hxLifetime, hyName, hyLifetime, fun hUid => ?_⟩
  have hOne := ((hSame x hx y hy).1.1 hUid).2
  omega

end Tenancy
