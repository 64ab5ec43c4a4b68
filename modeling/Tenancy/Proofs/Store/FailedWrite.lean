import Tenancy.Proofs.Store.Request

/-!
# Requests that fail

A write stores the bytes of its payload and reads the entry back afterwards.  So there is one way to
fail and leave something behind: the codec has written bytes that it cannot read.  JSON is such a
codec, because what it writes may be nested deeper than it reads.

* `Unread`: what such a write has done.
* `failed_request_keeps_container`: a request that fails in any other way leaves the container, its
  revision and its log as they were.  After such a write every request about the name fails.
* `failed_update_stores_nested_json`: an update that fails and creates an entry.
-/

namespace Tenancy

variable {σ τ α : Type}

namespace BlobStore

/-- The request `q` has stored bytes of a payload in the container `c`, as the entry of its name,
and the entry cannot be read, with the error `e`; `c'` is the container afterwards. -/
inductive Unread {m : Type → Type} (s : BlobStore m α) (call : Call) (c : MemoryContainer)
    (e : StoreError) : StoreRequest τ α → MemoryContainer → Prop
  | created (w : Write τ α) (name : String) (payload : α) (bytes : Bytes)
      (hName : StoreRequest.target call (.write w) = name)
      (hAbsent : c.entries.get? name = none) (hBytes : s.codec.encode payload = .ok bytes)
      (hRead : s.read (c.newEntry call.birth name bytes) = .error e) :
      Unread s call c e (.write w) (c.afterCreate call.birth name bytes)
  | replaced (name : String) (mutate : Mutation (StateM τ) α) (allowCreate : Bool) (old : Entry)
      (payload : α) (bytes : Bytes) (hStored : c.entries.get? name = some old)
      (hBytes : s.codec.encode payload = .ok bytes)
      (hRead : s.read (c.patchedEntry old bytes) = .error e) :
      Unread s call c e (.write (.update name mutate allowCreate)) (c.afterPatch name old bytes)

/-- The entry that is left behind. -/
theorem Unread.entry {m : Type → Type} {s : BlobStore m α} {call : Call} {c c' : MemoryContainer}
    {e : StoreError} {q : StoreRequest τ α} (h : s.Unread call c e q c') :
    ∃ entry, c'.entries.get? (q.target call) = some entry ∧ s.read entry = .error e := by
  cases h with
  | created w name payload bytes hName _ _ hRead =>
    exact ⟨_, by rw [hName, MemoryContainer.afterCreate_entries, SortedMap.get?_insert_self], hRead⟩
  | replaced name mutate allowCreate old payload bytes _ _ hRead =>
    exact ⟨_, SortedMap.get?_insert_self, hRead⟩

theorem decode_of_read {m : Type → Type} {s : BlobStore m α} {entry : Entry} {e : StoreError}
    (hRead : s.read entry = .error e) : ∃ fault, s.codec.decode entry.bytes = .error fault := by
  rw [read, payloadOf] at hRead
  cases hBytes : s.codec.decode entry.bytes with
  | error fault => exact ⟨fault, rfl⟩
  | ok payload => simp [hBytes] at hRead

theorem Unread.codec_fails {m : Type → Type} {s : BlobStore m α} {call : Call}
    {c c' : MemoryContainer} {e : StoreError} {q : StoreRequest τ α} (h : s.Unread call c e q c') :
    ∃ payload bytes fault,
      s.codec.encode payload = .ok bytes ∧ s.codec.decode bytes = .error fault := by
  cases h with
  | created w name payload bytes _ _ hBytes hRead =>
    obtain ⟨fault, hFault⟩ := decode_of_read hRead
    exact ⟨payload, bytes, fault, hBytes, hFault⟩
  | replaced name mutate allowCreate old payload bytes _ hBytes hRead =>
    obtain ⟨fault, hFault⟩ := decode_of_read hRead
    exact ⟨payload, bytes, fault, hBytes, hFault⟩

/-- Where the run `x` of the request `q` has failed, it has left the container `c` as it was or an
entry there that cannot be read. -/
def KeepsOrUnread {m : Type → Type} {β : Type} (s : BlobStore m α) (call : Call)
    (c : MemoryContainer) (q : StoreRequest τ α)
    (x : Except StoreError β × MemoryContainer × τ) : Prop :=
  ∀ e, x.1 = .error e → x.2.1 = c ∨ s.Unread call c e q x.2.1

section

variable {m : Type → Type} {β γ : Type} {s : BlobStore m α} {call : Call} {c c' : MemoryContainer}
  {q : StoreRequest τ α} {result : Except StoreError β} {t : τ}

theorem KeepsOrUnread.kept : s.KeepsOrUnread call c q (result, c, t) := fun _ _ => .inl rfl

theorem KeepsOrUnread.stored (h : ∀ e, result = .error e → s.Unread call c e q c') :
    s.KeepsOrUnread call c q (result, c', t) := fun e hError => .inr (h e hError)

theorem KeepsOrUnread.map {f : β → γ} {x : Except StoreError β × MemoryContainer × τ}
    (h : s.KeepsOrUnread call c q x) : s.KeepsOrUnread call c q (x.1.map f, x.2) := by
  intro e hError
  refine h e ?_
  rcases hResult : x.1 with e' | b
  · simpa [hResult] using hError
  · simp [hResult] at hError

end

variable {s : BlobStore (StateM (MemoryContainer × τ)) α}
  (hContainer : s.container = MemoryContainer.container besideMutations.cell)
  (call : Call) (c : MemoryContainer) (t : τ)

include hContainer

theorem keeps_createEntry {w : Write τ α} {name : String}
    (hName : StoreRequest.target call (.write w) = name) (payload : α) :
    s.KeepsOrUnread call c (.write w)
      (runOn (s.createEntry call.birth name payload) (c, t)) := by
  rw [runOn_createEntry hContainer]
  cases hBytes : s.write payload with
  | error e => exact .kept
  | ok bytes =>
    cases hTaken : c.entries.contains name with
    | true =>
      simp only [besideMutations, hTaken, if_true]
      exact .kept
    | false =>
      simp only [besideMutations, hTaken, Bool.false_eq_true, if_false]
      exact .stored fun e hRead => .created w name payload bytes hName
        (SortedMap.contains_eq_false_iff.1 hTaken) (write_eq_ok_iff.1 hBytes) hRead

theorem keeps_create (hSupported : s.capabilities.supports .create = true) (r : Resource α) :
    s.KeepsOrUnread call c (.write (.create r : Write τ α))
      (runOn (s.create call r) (c, t)) := by
  rw [runOn_create hSupported]
  cases checkedName (assignedName call r.metadata) with
  | error e => exact .kept
  | ok _ => exact keeps_createEntry hContainer call c t rfl r.payload

theorem keeps_replace {name : String} (was : α) (mutate : Mutation (StateM τ) α)
    (allowCreate : Bool) {old : Entry} (hStored : c.entries.get? name = some old) :
    s.KeepsOrUnread call c (.write (.update name mutate allowCreate))
      (runOn (s.replace name was fun old => ofMutations.cell.access (mutate old)) (c, t)) := by
  rw [runOn_replace hContainer, runOn_cell]
  simp only [ofMutations, besideMutations]
  rcases runOn (mutate (some was)) t with ⟨e | payload, u⟩
  · exact .kept
  · simp only [hStored]
    cases hBytes : s.write payload with
    | error e => exact .kept
    | ok bytes =>
      exact .stored fun e hRead => .replaced name mutate allowCreate old payload bytes hStored
        (write_eq_ok_iff.1 hBytes) hRead

theorem keeps_update (hSupported : s.capabilities.supports .update = true) (name : String)
    (mutate : Mutation (StateM τ) α) (allowCreate : Bool) :
    s.KeepsOrUnread call c (.write (.update name mutate allowCreate))
      (runOn (s.update call name (fun old => ofMutations.cell.access (mutate old)) allowCreate)
        (c, t)) := by
  rw [runOn_update hContainer hSupported]
  simp only [besideMutations]
  cases hOld : c.entries.get? name with
  | some old =>
    dsimp only
    cases s.read old with
    | error e => exact .kept
    | ok was => exact (keeps_replace hContainer call c t was.payload mutate allowCreate hOld).map
  | none =>
    cases allowCreate with
    | false => exact .kept
    | true =>
      simp only [if_true]
      cases checkedName name with
      | error e => exact .kept
      | ok _ =>
        simp only [runOn_cell, ofMutations]
        rcases runOn (mutate none) t with ⟨e | payload, u⟩
        · exact .kept
        · exact (keeps_createEntry hContainer call c u rfl payload).map

theorem keeps_delete (hSupported : s.capabilities.supports .delete = true) (name : String) :
    s.KeepsOrUnread call c (.delete name : StoreRequest τ α) (runOn (s.delete name) (c, t)) := by
  rw [runOn_delete hContainer hSupported]
  simp only [besideMutations]
  cases c.entries.get? name with
  | none => exact .kept
  | some old =>
    dsimp only
    cases s.read old with
    | error e => exact .kept
    | ok was => exact fun e hError => by cases hError

theorem keeps_request (q : StoreRequest τ α) :
    s.KeepsOrUnread call c q (runOn ((q.on ofMutations).run s.store call) (c, t)) := by
  cases hSupported : s.capabilities.supports q.verb with
  | false =>
    have hRefused : runOn ((q.on ofMutations).run s.store call) (c, t) = _ :=
      runOn_unsupported s (by rwa [StoreRequest.verb_on]) call (c, t)
    rw [hRefused]
    exact .kept
  | true =>
    match q with
    | .get name =>
      refine runOn_map _ (s.get name) (c, t) ▸ KeepsOrUnread.map ?_
      rw [runOn_get hContainer hSupported]
      exact .kept
    | .write (.create r) =>
      have hCreate := keeps_create hContainer call c t hSupported r
      exact runOn_map _ (s.create call r) (c, t) ▸ hCreate.map
    | .write (.update name mutate allowCreate) =>
      exact keeps_update hContainer call c t hSupported name mutate allowCreate
    | .delete name => exact keeps_delete hContainer call c t hSupported name

theorem runOn_create_of_taken (hSupported : s.capabilities.supports .create = true)
    (r : Resource α) (hTaken : c.entries.contains (assignedName call r.metadata) = true) :
    ∃ e, runOn (s.create call r) (c, t) = (.error e, c, t) := by
  rw [runOn_create hSupported]
  cases checkedName (assignedName call r.metadata) with
  | error e => exact ⟨e, rfl⟩
  | ok _ =>
    dsimp only
    rw [runOn_createEntry hContainer]
    cases s.write r.payload with
    | error e => exact ⟨e, rfl⟩
    | ok bytes => exact ⟨_, if_pos hTaken⟩

/-- Whatever is asked about an entry that cannot be read fails, and changes nothing. -/
theorem runOn_of_unreadable (q : StoreRequest τ α) {entry : Entry} {e : StoreError}
    (hStored : c.entries.get? (q.target call) = some entry) (hRead : s.read entry = .error e) :
    ∃ e, runOn ((q.on ofMutations).run s.store call) (c, t) = (.error e, c, t) := by
  cases hSupported : s.capabilities.supports q.verb with
  | false => exact ⟨_, runOn_unsupported s (by rwa [StoreRequest.verb_on]) call (c, t)⟩
  | true =>
    match q with
    | .get name =>
      change c.entries.get? name = some entry at hStored
      have hRun := runOn_get hContainer hSupported name (c, t)
      simp only [besideMutations, hStored, hRead] at hRun
      exact ⟨e, by simp only [StoreRequest.on, StoreRequest.run, store, runOn_map, hRun, map_error]⟩
    | .write (.create r) =>
      obtain ⟨e', hRun⟩ := runOn_create_of_taken hContainer call c t hSupported r
        (SortedMap.contains_iff.2 ⟨entry, hStored⟩)
      exact ⟨e', by simp only [StoreRequest.on, Write.on, StoreRequest.run, Write.run, store,
        runOn_map, hRun, map_error]⟩
    | .write (.update name mutate allowCreate) =>
      change c.entries.get? name = some entry at hStored
      have hRun := runOn_update hContainer hSupported call name
        (fun old => ofMutations.cell.access (mutate old)) allowCreate (c, t)
      simp only [besideMutations, hStored, hRead] at hRun
      exact ⟨e, hRun⟩
    | .delete name =>
      change c.entries.get? name = some entry at hStored
      have hRun := runOn_delete hContainer hSupported name (c, t)
      simp only [besideMutations, hStored, hRead] at hRun
      exact ⟨e, hRun⟩

end BlobStore

/-- A request that fails leaves the container as it was, with its revision and its log, unless it is
a write that has stored bytes which cannot be read back.  That it can be only if the codec writes
what it does not read, and then every request about the name fails from there on, and changes
nothing. -/
theorem failed_request_keeps_container (s : BlobStore (StateM (MemoryContainer × τ)) α)
    (hContainer : s.container = MemoryContainer.container besideMutations.cell) (call : Call)
    (q : StoreRequest τ α) (c : MemoryContainer) (t : τ) (e : StoreError) :
    let run := runOn ((q.on ofMutations).run s.store call) (c, t)
    run.1 = .error e → run.2.1 = c ∨
      s.Unread call c e q run.2.1 ∧
      (∃ payload bytes fault,
        s.codec.encode payload = .ok bytes ∧ s.codec.decode bytes = .error fault) ∧
      ∀ later (r : StoreRequest τ α), r.target later = q.target call →
        ∃ e, runOn ((r.on ofMutations).run s.store later) run.2 = (.error e, run.2) := by
  intro run hError
  refine (BlobStore.keeps_request hContainer call c t q e hError).imp_right fun hUnread => ?_
  refine ⟨hUnread, hUnread.codec_fails, fun later r hTarget => ?_⟩
  obtain ⟨entry, hStored, hRead⟩ := hUnread.entry
  exact BlobStore.runOn_of_unreadable hContainer later run.2.1 run.2.2 r (hTarget ▸ hStored) hRead

/-! ## JSON -/

def Json.nested : Nat → Json
  | 0 => .null
  | depth + 1 => .array [nested depth]

def BlobStore.ofJson : BlobStore (StateM (MemoryContainer × Unit)) Json :=
  ⟨.organization, MemoryContainer.container besideMutations.cell, .json .any, {}, .all⟩

def StoreRequest.deepening : StoreRequest Unit Json :=
  .write (.update "a" (fun _ => return .nested 128) true)

def StoreError.tooDeep : StoreError :=
  .internal "decoding organizations \"a\": Decode error: recursion limit exceeded"

theorem failed_request_keeps_container_deepening :
    let call : Call := ⟨⟨"alice", []⟩, ⟨0, 0⟩, "1", "abcde"⟩
    let run := runOn ((StoreRequest.deepening.on ofMutations).run BlobStore.ofJson.store call)
      (.ofCapacity 4, ())
    run.1 = .error .tooDeep ∧ run.2.1.entries.keys = ["a"] ∧
      ∀ later (r : StoreRequest Unit Json), r.target later = "a" →
        ∃ e, runOn ((r.on ofMutations).run BlobStore.ofJson.store later) run.2 =
          (.error e, run.2) := by
  intro call run
  have hError : problem? run.1 = some .tooDeep := by decide +kernel
  have hKeys : run.2.1.entries.keys = ["a"] := by decide +kernel
  have hFailed : run.1 = .error .tooDeep := problem?_eq_some_iff.1 hError
  have hChanged : run.2.1 ≠ .ofCapacity 4 := fun hSame => by
    rw [hSame] at hKeys
    exact absurd hKeys (by decide)
  have hEnd := failed_request_keeps_container BlobStore.ofJson rfl call .deepening (.ofCapacity 4)
    () .tooDeep
  -- From here on the run is known by these facts only, and not evaluated.
  extract_lets at hEnd
  clear_value run
  obtain ⟨-, -, hStuck⟩ := (hEnd hFailed).resolve_left hChanged
  exact ⟨hFailed, hKeys, hStuck⟩

/-- The update fails, and yet there is an entry, a revision and an event. -/
theorem failed_update_stores_nested_json :
    let call : Call := ⟨⟨"alice", []⟩, ⟨0, 0⟩, "1", "abcde"⟩
    let run := runOn ((StoreRequest.deepening.on ofMutations).run BlobStore.ofJson.store call)
      (.ofCapacity 4, ())
    problem? run.1 = some .tooDeep ∧ run.2.1.size = 1 ∧ run.2.1.revision = 1 ∧
      run.2.1.bus.log.size = 1 := by
  decide +kernel

end Tenancy
