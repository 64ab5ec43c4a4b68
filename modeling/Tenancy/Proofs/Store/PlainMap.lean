import Mathlib.Logic.Function.Basic
import Tenancy.Proofs.Store.Request

/-!
# Stores over containers in memory as plain maps

If the codec reads back what it writes, a store is a plain map from names to payloads: bytes,
entries and versions do not show in its answers.  The plain map is described by what it answers
(`Payloads.answer`) and by what an answer makes of it (`Payloads.after`).

Mutations may have effects on a state of their own, which lies beside the container.  So it counts
when a mutation is called, and with what.

* `BlobStore.follows_request`: one request, from a container that represents a map.
* `refines_plain_map`: every run of requests from the empty container.
-/

namespace Tenancy

variable {τ α : Type}

/-! ## The plain map -/

abbrev Payloads (α : Type) := String → Option α

namespace Payloads

structure Rules (α : Type) where
  collection : Collection
  capabilities : Capabilities
  /-- Why a payload cannot be written, if it cannot. -/
  refusal : α → Option CodecError

/-- The name and the payload that a request is about in the end, and whether it created or removed
them. -/
abbrev Answer (α : Type) := String × α × Bool

variable (rules : Rules α) (m : Payloads α)

def fetch (name : String) (isGone : Bool) : Except StoreError (Answer α) :=
  match m name with
  | some payload => .ok (name, payload, isGone)
  | none => .error (.notFound rules.collection name)

/-- The answer to a payload that is to be written: the given one, unless it cannot be written. -/
def written (payload : α) (answer : Except StoreError (Answer α)) : Except StoreError (Answer α) :=
  match rules.refusal payload with
  | some e => .error (.internal ("encoding " ++ rules.collection.text ++ ": " ++ e.message))
  | none => answer

/-- The answer to a creation.  That the name is taken is found out last. -/
def create (name : String) (payload : α) : Except StoreError (Answer α) :=
  match problem? (checkName name) with
  | some fault => .error (.validationFailed fault.message)
  | none => written rules payload (match m name with
    | some _ => .error (.alreadyExists rules.collection name)
    | none => .ok (name, payload, true))

/-- The answer to a change of the payload `old`, or of none, by a mutation; the effects of the
mutation are those of one call. -/
def change (name : String) (old : Option α) (mutate : Mutation (StateM τ) α) (t : τ) :
    Except StoreError (Answer α) × τ :=
  ((runOn (mutate old) t).1.bind fun payload =>
    written rules payload (.ok (name, payload, old.isNone)), (runOn (mutate old) t).2)

/-- The answer to an update.  Without a payload the mutation is called only where the update may
create one, under a valid name. -/
def update (name : String) (mutate : Mutation (StateM τ) α) (allowCreate : Bool) (t : τ) :
    Except StoreError (Answer α) × τ :=
  match m name, allowCreate, problem? (checkName name) with
  | some old, _, _ => change rules name (some old) mutate t
  | none, false, _ => (.error (.notFound rules.collection name), t)
  | none, true, some fault => (.error (.validationFailed fault.message), t)
  | none, true, none => change rules name none mutate t

def answer (call : Call) (q : StoreRequest τ α) (t : τ) : Except StoreError (Answer α) × τ :=
  if rules.capabilities.supports q.verb then
    match q with
    | .get name => (fetch rules m name false, t)
    | .write (.create r) =>
      (create rules m (BlobStore.assignedName call r.metadata) r.payload, t)
    | .write (.update name mutate allowCreate) => update rules m name mutate allowCreate t
    | .delete name => (fetch rules m name true, t)
  else (.error (.methodNotSupported q.verb), t)

/-- The map after a request with the given answer. -/
def after (q : StoreRequest τ α) : Except StoreError (Answer α) → Payloads α
  | .error _ => m
  | .ok (name, payload, _) =>
    match q with
    | .get _ => m
    | .write _ => Function.update m name (some payload)
    | .delete _ => Function.update m name none

def serve : List (Call × StoreRequest τ α) → Payloads α → τ →
    List (Except StoreError (Answer α)) × Payloads α × τ
  | [], m, t => ([], m, t)
  | (call, q) :: requests, m, t =>
    let (result, t) := answer rules m call q t
    let (results, m, t) := serve requests (after m q result) t
    (result :: results, m, t)

end Payloads

/-! ## The store -/

def answerOf (outcome : Outcome α) : Payloads.Answer α :=
  (outcome.1.name, outcome.1.payload, outcome.2)

/-- The entries of the container are those of the map, under their own names. -/
def Represents (codec : Codec α) (c : MemoryContainer) (m : Payloads α) : Prop :=
  ∀ name, (c.entries.get? name).map (fun entry => (entry.name, codec.decode entry.bytes)) =
    (m name).map fun payload => (name, .ok payload)

namespace Represents

variable {codec : Codec α} {c : MemoryContainer} {m : Payloads α} {name : String} {payload : α}

theorem empty (codec : Codec α) (capacity : Nat) :
    Represents codec (.ofCapacity capacity) fun _ => none := fun _ => rfl

variable (h : Represents codec c m)

include h

theorem absent (hNone : m name = none) : c.entries.get? name = none := by
  have hName := h name
  rw [hNone] at hName
  exact Option.map_eq_none_iff.1 hName

theorem stored (hSome : m name = some payload) :
    ∃ entry, c.entries.get? name = some entry ∧ entry.name = name ∧
      codec.decode entry.bytes = .ok payload := by
  have hName := h name
  rw [hSome] at hName
  obtain ⟨entry, hEntry, hPair⟩ := Option.map_eq_some_iff.1 hName
  exact ⟨entry, hEntry, (Prod.mk.inj hPair).1, (Prod.mk.inj hPair).2⟩

theorem insert {c' : MemoryContainer} {entry : Entry}
    (hEntries : c'.entries = c.entries.insert name entry) (hName : entry.name = name)
    (hDecode : codec.decode entry.bytes = .ok payload) :
    Represents codec c' (Function.update m name (some payload)) := by
  intro other
  rw [hEntries, SortedMap.get?_insert, Function.update_apply]
  by_cases hOther : other = name
  · simp [hOther, hName, hDecode]
  · simpa [hOther] using h other

theorem erase {c' : MemoryContainer} (hEntries : c'.entries = c.entries.erase name) :
    Represents codec c' (Function.update m name none) := by
  intro other
  rw [hEntries, SortedMap.get?_erase, Function.update_apply]
  by_cases hOther : other = name
  · simp [hOther]
  · simpa [hOther] using h other

end Represents

namespace BlobStore

def rules {m : Type → Type} (s : BlobStore m α) : Payloads.Rules α where
  collection := s.collection
  capabilities := s.capabilities
  refusal payload := problem? (s.codec.encode payload)

/-- A request to the store goes as the same request to the plain map: with the same answer and the
same effects of its mutation, and with the container unchanged if it is refused. -/
structure Follows (codec : Codec α) (c : MemoryContainer) (m : Payloads α) (q : StoreRequest τ α)
    (x : Except StoreError (Outcome α) × MemoryContainer × τ)
    (y : Except StoreError (Payloads.Answer α) × τ) : Prop where
  answer : x.1.map answerOf = y.1
  effects : x.2.2 = y.2
  represents : Represents codec x.2.1 (m.after q y.1)
  unchanged : ∀ e, x.1 = .error e → x.2.1 = c

theorem Follows.refused {codec : Codec α} {c : MemoryContainer} {m : Payloads α}
    {q : StoreRequest τ α} (h : Represents codec c m) (e : StoreError) (t : τ) :
    Follows codec c m q (.error e, c, t) (.error e, t) := ⟨rfl, rfl, h, fun _ _ => rfl⟩

variable {s : BlobStore (StateM (MemoryContainer × τ)) α}
  (hContainer : s.container = MemoryContainer.container besideMutations.cell)
  {c : MemoryContainer} {m : Payloads α} (h : Represents s.codec c m)

include h

theorem Follows.stored {q : Write τ α} {name : String} {payload : α} {bytes : Bytes} (isNew : Bool)
    {c' : MemoryContainer} {entry : Entry} (t : τ) (hTrip : s.codec.RoundTrips payload)
    (hBytes : s.codec.encode payload = .ok bytes) (hEntry : entry.bytes = bytes)
    (hName : entry.name = name) (hEntries : c'.entries = c.entries.insert name entry) :
    Follows s.codec c m (.write q) ((s.read entry).map (·, isNew), c', t)
      (.ok (name, payload, isNew), t) := by
  rw [read_of_roundTrips entry hTrip hBytes hEntry]
  refine ⟨?_, rfl, ?_, fun e hError => by cases hError⟩
  · simp [answerOf, Resource.name, metadataOf, hName]
  · exact h.insert hEntries hName (hEntry ▸ hTrip bytes hBytes)

include hContainer

/-- A payload under a free name, or under one that is taken. -/
theorem follows_createEntry (q : Write τ α) (birth : Birth) (name : String) (payload : α) (t : τ)
    (hTrip : s.codec.RoundTrips payload) :
    Follows s.codec c m (.write q)
      ((runOn (s.createEntry birth name payload) (c, t)).1.map (·, true),
        (runOn (s.createEntry birth name payload) (c, t)).2)
      (Payloads.written s.rules payload (match m name with
        | some _ => .error (.alreadyExists s.collection name)
        | none => .ok (name, payload, true)), t) := by
  rw [runOn_createEntry hContainer, Payloads.written]
  simp only [rules, write]
  cases hBytes : s.codec.encode payload with
  | error e => exact .refused h _ t
  | ok bytes =>
    cases hName : m name with
    | some was =>
      obtain ⟨entry, hStored, -⟩ := h.stored hName
      have hTaken : c.entries.contains name = true := SortedMap.contains_iff.2 ⟨entry, hStored⟩
      simp only [mapError_ok, problem?_ok, besideMutations, hTaken, if_true]
      exact .refused h _ t
    | none =>
      have hFree : c.entries.contains name = false :=
        SortedMap.contains_eq_false_iff.2 (h.absent hName)
      simp only [mapError_ok, problem?_ok, besideMutations, hFree, Bool.false_eq_true, if_false]
      exact .stored h true t hTrip hBytes rfl rfl rfl

variable (hTrip : ∀ payload, s.codec.RoundTrips payload)

include hTrip

theorem follows_create (hSupported : s.capabilities.supports .create = true) (call : Call)
    (r : Resource α) (t : τ) :
    Follows s.codec c m (.write (.create r : Write τ α))
      (runOn ((·, true) <$> s.create call r) (c, t))
      (Payloads.create s.rules m (assignedName call r.metadata) r.payload, t) := by
  rw [runOn_map, runOn_create hSupported, Payloads.create, checkedName]
  cases checkName (assignedName call r.metadata) with
  | error fault => exact .refused h _ t
  | ok _ => exact follows_createEntry hContainer h _ call.birth _ r.payload t (hTrip _)

theorem follows_replace {name : String} {old : α} (hOld : m name = some old)
    (mutate : Mutation (StateM τ) α) (allowCreate : Bool) (t : τ) :
    Follows s.codec c m (.write (.update name mutate allowCreate))
      ((runOn (s.replace name old fun old => ofMutations.cell.access (mutate old)) (c, t)).1.map
          (·, false),
        (runOn (s.replace name old fun old => ofMutations.cell.access (mutate old)) (c, t)).2)
      (Payloads.change s.rules name (some old) mutate t) := by
  rw [runOn_replace hContainer, runOn_cell, Payloads.change]
  obtain ⟨entry, hStored, hName, -⟩ := h.stored hOld
  simp only [ofMutations, besideMutations]
  rcases runOn (mutate (some old)) t with ⟨e | payload, u⟩
  · exact .refused h e u
  · simp only [Payloads.written, rules, write, hStored, Except.bind]
    cases hBytes : s.codec.encode payload with
    | error e => exact .refused h _ u
    | ok bytes => exact .stored h false u (hTrip payload) hBytes rfl hName rfl

theorem follows_update (hSupported : s.capabilities.supports .update = true) (call : Call)
    (name : String) (mutate : Mutation (StateM τ) α) (allowCreate : Bool) (t : τ) :
    Follows s.codec c m (.write (.update name mutate allowCreate))
      (runOn (s.update call name (fun old => ofMutations.cell.access (mutate old)) allowCreate)
        (c, t))
      (Payloads.update s.rules m name mutate allowCreate t) := by
  rw [runOn_update hContainer hSupported]
  unfold Payloads.update
  cases hOld : m name with
  | some old =>
    obtain ⟨entry, hStored, -, hDecode⟩ := h.stored hOld
    have hRead : s.read entry = .ok ⟨metadataOf entry, old⟩ := read_eq_ok_iff.2 ⟨old, hDecode, rfl⟩
    simp only [besideMutations, hStored, hRead]
    exact follows_replace hContainer h hTrip hOld mutate allowCreate t
  | none =>
    simp only [besideMutations, h.absent hOld]
    cases allowCreate with
    | false => exact .refused h _ t
    | true =>
      rw [checkedName, if_pos rfl]
      cases checkName name with
      | error fault => exact .refused h _ t
      | ok _ =>
        simp only [mapError_ok, runOn_cell, Payloads.change, ofMutations]
        rcases runOn (mutate none) t with ⟨e | payload, u⟩
        · exact .refused h e u
        · have hEntry := follows_createEntry hContainer h (.update name mutate true) call.birth name
            payload u (hTrip payload)
          rw [hOld] at hEntry
          exact hEntry

omit hTrip

theorem follows_get (hSupported : s.capabilities.supports .get = true) (name : String) (t : τ) :
    Follows s.codec c m (.get name : StoreRequest τ α) (runOn ((·, false) <$> s.get name) (c, t))
      (Payloads.fetch s.rules m name false, t) := by
  rw [runOn_map, runOn_get hContainer hSupported, Payloads.fetch]
  simp only [besideMutations]
  cases hOld : m name with
  | some old =>
    obtain ⟨entry, hStored, hName, hDecode⟩ := h.stored hOld
    have hRead : s.read entry = .ok ⟨metadataOf entry, old⟩ := read_eq_ok_iff.2 ⟨old, hDecode, rfl⟩
    simp only [hStored, hRead]
    exact ⟨by simp [answerOf, Resource.name, metadataOf, hName], rfl, h, fun _ _ => rfl⟩
  | none =>
    rw [h.absent hOld]
    exact .refused h _ t

theorem follows_delete (hSupported : s.capabilities.supports .delete = true) (name : String)
    (t : τ) :
    Follows s.codec c m (.delete name : StoreRequest τ α) (runOn (s.delete name) (c, t))
      (Payloads.fetch s.rules m name true, t) := by
  rw [runOn_delete hContainer hSupported, Payloads.fetch]
  simp only [besideMutations]
  cases hOld : m name with
  | some old =>
    obtain ⟨entry, hStored, hName, hDecode⟩ := h.stored hOld
    have hRead : s.read entry = .ok ⟨metadataOf entry, old⟩ := read_eq_ok_iff.2 ⟨old, hDecode, rfl⟩
    simp only [hStored, hRead]
    refine ⟨?_, rfl, h.erase rfl, fun e hError => by cases hError⟩
    simp [answerOf, Resource.name, metadataOf, hName]
  | none =>
    rw [h.absent hOld]
    exact .refused h _ t

include hTrip

theorem follows_request (call : Call) (q : StoreRequest τ α) (t : τ) :
    Follows s.codec c m q (runOn ((q.on ofMutations).run s.store call) (c, t))
      (Payloads.answer s.rules m call q t) := by
  unfold Payloads.answer
  cases hSupported : s.rules.capabilities.supports q.verb with
  | false =>
    have hRefused : runOn ((q.on ofMutations).run s.store call) (c, t) = _ :=
      runOn_unsupported s (by rwa [StoreRequest.verb_on]) call (c, t)
    rw [hRefused, StoreRequest.verb_on]
    exact .refused h _ t
  | true =>
    match q with
    | .get name => exact follows_get hContainer h hSupported name t
    | .write (.create r) => exact follows_create hContainer h hTrip hSupported call r t
    | .write (.update name mutate allowCreate) =>
      exact follows_update hContainer h hTrip hSupported call name mutate allowCreate t
    | .delete name => exact follows_delete hContainer h hSupported name t

theorem follows_runAll (requests : List (Call × StoreRequest τ α)) (t : τ) :
    let run := StoreRequest.runAll s.store (requests.map fun q => (q.1, q.2.on ofMutations)) (c, t)
    let served := Payloads.serve s.rules requests m t
    run.1.map (·.map answerOf) = served.1 ∧ Represents s.codec run.2.1 served.2.1 ∧
      run.2.2 = served.2.2 := by
  induction requests generalizing c m t with
  | nil => exact ⟨rfl, h, rfl⟩
  | cons request requests ih =>
    have hFirst := follows_request hContainer h hTrip request.1 request.2 t
    rcases hRun : runOn ((request.2.on ofMutations).run s.store request.1) (c, t) with
      ⟨result, c', u⟩
    rcases hAnswer : Payloads.answer s.rules m request.1 request.2 t with ⟨answer, v⟩
    rw [hRun, hAnswer] at hFirst
    obtain ⟨hSame, hEffects, hRepresents, -⟩ := hFirst
    dsimp only at hSame hEffects hRepresents
    subst hEffects
    obtain ⟨hResults, hRest⟩ := ih hRepresents u
    simp only [List.map_cons, StoreRequest.runAll, Payloads.serve, hRun, hAnswer]
    exact ⟨by rw [hSame, hResults], hRest⟩

end BlobStore

/-! ## Every run -/

/-- Let the codec read back whatever it writes, and let requests be made to a store over an empty
container, one after the other.  They get the answers that a plain map from names to payloads gives,
their mutations are called as often and with the same payloads, and the container holds at every
time the entries of the map.  A request that is refused leaves the container, its revision and its
log as they were. -/
theorem refines_plain_map (collection : Collection) (codec : Codec α) (config : StoreConfig)
    (capabilities : Capabilities) (hTrip : ∀ payload, codec.RoundTrips payload) (capacity : Nat)
    (requests : List (Call × StoreRequest τ α)) (t : τ) :
    let s : BlobStore (StateM (MemoryContainer × τ)) α :=
      ⟨collection, MemoryContainer.container besideMutations.cell, codec, config, capabilities⟩
    let run := StoreRequest.runAll s.store (requests.map fun q => (q.1, q.2.on ofMutations))
      (.ofCapacity capacity, t)
    let served := Payloads.serve s.rules requests (fun _ => none) t
    run.1.map (·.map answerOf) = served.1 ∧ Represents codec run.2.1 served.2.1 ∧
      run.2.2 = served.2.2 ∧
      ∀ call (q : StoreRequest τ α) e,
        (runOn ((q.on ofMutations).run s.store call) run.2).1 = .error e →
          (runOn ((q.on ofMutations).run s.store call) run.2).2.1 = run.2.1 := by
  intro s run served
  obtain ⟨hAnswers, hRepresents, hEffects⟩ := BlobStore.follows_runAll (s := s) rfl
    (Represents.empty codec capacity) hTrip requests t
  refine ⟨hAnswers, hRepresents, hEffects, fun call q e hError => ?_⟩
  have hNext := BlobStore.follows_request (s := s) rfl hRepresents hTrip call q run.2.2
  exact hNext.unchanged e hError

/-! ## A small store -/

def Codec.atMostThree : Codec Bytes where
  encode bytes := if bytes.length ≤ 3 then .ok bytes else .error (.encode "too long")
  decode := .ok
  contentType := "application/octet-stream"

theorem Codec.roundTrips_atMostThree (payload : Bytes) : Codec.atMostThree.RoundTrips payload := by
  intro bytes hBytes
  simp only [atMostThree] at hBytes
  split at hBytes
  · exact hBytes.symm
  · cases hBytes

/-- The mutation that notes what it is given and puts `next` in its place. -/
def Mutation.noting (next : Bytes) : Mutation (StateM (List (Option Bytes))) Bytes := fun old => do
  modify fun notes => notes ++ [old]
  return next

/-- Requests of all kinds, half of which are refused. -/
def StoreRequest.sample : List (Call × StoreRequest (List (Option Bytes)) Bytes) :=
  let call : Call := ⟨⟨"alice", []⟩, ⟨0, 0⟩, "1", "abcde"⟩
  [.write (.create (.named "a" [1])), .write (.create (.named "a" [2])),
    .write (.create (.generated "g-" [3])), .write (.create (.named "" [4])),
    .write (.update "a" (.noting [5]) false), .write (.update "b" (.noting [6]) true),
    .write (.update "c" (.noting [7]) false), .write (.update "a" (.noting [8, 8, 8, 8]) false),
    .delete "b", .get "b", .get "a"].map (call, ·)

theorem refines_plain_map_sample :
    let s : BlobStore (StateM (MemoryContainer × List (Option Bytes))) Bytes :=
      ⟨.organization, MemoryContainer.container besideMutations.cell, .atMostThree, {}, .all⟩
    let run := StoreRequest.runAll s.store
      (StoreRequest.sample.map fun q => (q.1, q.2.on ofMutations)) (.ofCapacity 8, [])
    (∀ payload, Codec.atMostThree.RoundTrips payload) ∧
    run.1.map (·.map answerOf) =
      [.ok ("a", [1], true), .error (.alreadyExists .organization "a"),
        .ok ("g-abcde", [3], true),
        .error (.validationFailed "name must not be empty"),
        .ok ("a", [5], false), .ok ("b", [6], true), .error (.notFound .organization "c"),
        .error (.internal "encoding organizations: Encode error: too long"),
        .ok ("b", [6], true), .error (.notFound .organization "b"), .ok ("a", [5], false)] ∧
    run.2.2 = [some [1], none, some [5]] := by
  intro s run
  obtain ⟨hAnswers, -, hNotes, -⟩ := refines_plain_map .organization .atMostThree {} .all
    Codec.roundTrips_atMostThree 8 StoreRequest.sample []
  exact ⟨Codec.roundTrips_atMostThree, hAnswers.trans (by decide +kernel),
    hNotes.trans (by decide +kernel)⟩

end Tenancy
