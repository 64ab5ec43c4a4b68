import Tenancy.Proofs.Store.Page
import Tenancy.Proofs.Store.Restriction
import Tenancy.Proofs.Store.Visibility
import Tenancy.Proofs.Store.WatchStream

/-!
# What requests make of entries

A request to a store over a container writes the entry of one name at most, and nothing else of the
state than the container.  Reads, pages and watches write no entry.

* `Rewritten`: what a request may have made of the entries.
* `BlobStore.rewrites_request`: every request to a plain store has done that, and no more.
* `Store.authorized_state`: behind an authorizer that only looks a request leaves the state as it
  is, or does what it does to the store below.
-/

namespace Tenancy

variable {σ α : Type}

/-- The payload fits, if the one that was there does, or if there was none. -/
def StaysFit (fits : α → Prop) (old : Option α) (payload : α) : Prop :=
  (∀ was, old = some was → fits was) → fits payload

/-- What becomes of some entries if the entry of the name `written` is written, or none at all.  A
payload that is stored stands in `rel` to the one that was there, if there was one. -/
inductive Rewritten (codec : Codec α) (rel : Option α → α → Prop)
    (entries : SortedMap String Entry) :
    (written : Option String) → SortedMap String Entry → Prop
  | same (written : Option String) : Rewritten codec rel entries written entries
  | created {name : String} {new : Entry} {payload : α} (hAbsent : entries.get? name = none)
      (hRel : rel none payload) (hBytes : codec.encode payload = .ok new.bytes) :
      Rewritten codec rel entries (some name) (entries.insert name new)
  | replaced {name : String} {old new : Entry} {was payload : α}
      (hStored : entries.get? name = some old) (hWas : codec.decode old.bytes = .ok was)
      (hRel : rel (some was) payload) (hBytes : codec.encode payload = .ok new.bytes) :
      Rewritten codec rel entries (some name) (entries.insert name new)
  | removed (name : String) : Rewritten codec rel entries (some name) (entries.erase name)

namespace Rewritten

variable {codec : Codec α} {rel : Option α → α → Prop} {entries entries' : SortedMap String Entry}
  {written : Option String}

theorem get?_eq (h : Rewritten codec rel entries written entries') {name : String}
    (hOther : written ≠ some name) : entries'.get? name = entries.get? name := by
  cases h with
  | same => rfl
  | created | replaced =>
    exact SortedMap.get?_insert_of_ne fun hEq => hOther (congrArg some hEq.symm)
  | removed => exact SortedMap.get?_erase_of_ne fun hEq => hOther (congrArg some hEq.symm)

/-- If what is read fits, and what stays fit is stored, then all that is stored fits. -/
theorem fit {fits : α → Prop} (hDecoded : ∀ bytes was, codec.decode bytes = .ok was → fits was)
    (hStays : ∀ old payload, rel old payload → StaysFit fits old payload)
    (h : Rewritten codec rel entries written entries') :
    Rewritten codec (fun old payload => fits payload ∧ rel old payload) entries written
      entries' := by
  cases h with
  | same => exact .same written
  | created hAbsent hRel hBytes => exact .created hAbsent ⟨hStays _ _ hRel nofun, hRel⟩ hBytes
  | @replaced name old new was payload hStored hWas hRel hBytes =>
    have hOld : ∀ was', some was = some was' → fits was' := by
      rintro _ ⟨⟩
      exact hDecoded old.bytes was hWas
    exact .replaced hStored hWas ⟨hStays _ _ hRel hOld, hRel⟩ hBytes
  | removed name => exact .removed name

/-- What holds of every entry still does, if it holds of those with payloads that are stored. -/
theorem forall_entries (h : Rewritten codec rel entries written entries') {P : Entry → Prop}
    (hNew : ∀ old payload (new : Entry), rel old payload →
      codec.encode payload = .ok new.bytes → P new)
    (hEntries : ∀ name entry, entries.get? name = some entry → P entry) (name : String)
    (entry : Entry) : entries'.get? name = some entry → P entry := by
  cases h with
  | same => exact hEntries name entry
  | created _ hRel hBytes | replaced _ _ hRel hBytes =>
    exact SortedMap.forall_get?_insert hEntries (hNew _ _ _ hRel hBytes) name entry
  | removed => exact SortedMap.forall_get?_erase hEntries name entry

end Rewritten

namespace CollectionRequest

def written? (call : Call) : CollectionRequest σ α → Option String
  | .one (.write w) => some ((StoreRequest.write w).target call)
  | .one (.delete name) => some name
  | .one (.get _) | .list _ | .watch _ => none

/-- What the request stores stands in `rel` to what there was before, and its mutation, if it has
one, leaves the state alone. -/
def Stores (rel : Option α → α → Prop) : CollectionRequest σ α → Prop
  | .one (.write (.create r)) => rel none r.payload
  | .one (.write (.update _ mutate allowCreate)) =>
    ∀ old st, (runOn (mutate old) st).2 = st ∧
      ((old = none → allowCreate = true) →
        ∀ payload, (runOn (mutate old) st).1 = .ok payload → rel old payload)
  | .one (.get _) | .one (.delete _) | .list _ | .watch _ => True

theorem Stores.and {rel rel' : Option α → α → Prop} {q : CollectionRequest σ α}
    (h : q.Stores rel) (h' : q.Stores rel') :
    q.Stores fun old payload => rel old payload ∧ rel' old payload := by
  match q with
  | .one (.write (.create r)) => exact ⟨h, h'⟩
  | .one (.write (.update _ mutate allowCreate)) =>
    intro old st
    exact ⟨(h old st).1, fun hAllow payload hRun =>
      ⟨(h old st).2 hAllow payload hRun, (h' old st).2 hAllow payload hRun⟩⟩
  | .one (.get _) | .one (.delete _) | .list _ | .watch _ => trivial

end CollectionRequest

/-! ## Plain stores -/

namespace BlobStore

/-- From `st` to `st'` nothing has changed but the container at `p`, and its entries are
rewritten. -/
def Rewrites (s : BlobStore (StateM σ) α) (p : Part σ MemoryContainer)
    (rel : Option α → α → Prop) (written : Option String) (st st' : σ) : Prop :=
  ∃ c, st' = p.write c st ∧ Rewritten s.codec rel (p.read st).entries written c.entries

variable {s : BlobStore (StateM σ) α} {p : Part σ MemoryContainer} {rel : Option α → α → Prop}

theorem rewrites_nothing (written : Option String) (st : σ) : s.Rewrites p rel written st st :=
  ⟨p.read st, (p.write_read st).symm, .same written⟩

variable (hContainer : s.container = MemoryContainer.container p.cell)

include hContainer

theorem rewrites_createEntry (birth : Birth) (name : String) {payload : α}
    (hRel : rel none payload) (st : σ) :
    s.Rewrites p rel (some name) st (runOn (s.createEntry birth name payload) st).2 := by
  rw [runOn_createEntry hContainer]
  cases hBytes : s.write payload with
  | error e => exact rewrites_nothing _ st
  | ok bytes =>
    cases hTaken : (p.read st).entries.contains name with
    | true =>
      simp only [if_true]
      exact rewrites_nothing _ st
    | false =>
      simp only [Bool.false_eq_true, if_false]
      exact ⟨_, rfl, .created (SortedMap.contains_eq_false_iff.1 hTaken) hRel
        (write_eq_ok_iff.1 hBytes)⟩

theorem rewrites_create (call : Call) {r : Resource α} (hRel : rel none r.payload)
    (hSupported : s.capabilities.supports .create = true) (st : σ) :
    s.Rewrites p rel (some (assignedName call r.metadata)) st (runOn (s.create call r) st).2 := by
  rw [runOn_create hSupported]
  cases checkedName (assignedName call r.metadata) with
  | error e => exact rewrites_nothing _ st
  | ok _ => exact rewrites_createEntry hContainer call.birth _ hRel st

theorem rewrites_replace {name : String} {old : Entry} {was : α}
    {mutate : Mutation (StateM σ) α} {st : σ} (hStored : (p.read st).entries.get? name = some old)
    (hWas : s.codec.decode old.bytes = .ok was) (hSame : (runOn (mutate (some was)) st).2 = st)
    (hRel : ∀ payload, (runOn (mutate (some was)) st).1 = .ok payload → rel (some was) payload) :
    s.Rewrites p rel (some name) st (runOn (s.replace name was mutate) st).2 := by
  rw [runOn_replace hContainer]
  rcases hMutate : runOn (mutate (some was)) st with ⟨e | payload, t⟩ <;>
    obtain rfl : t = st := by rw [hMutate] at hSame; exact hSame
  · exact rewrites_nothing _ t
  · simp only [hStored]
    cases hBytes : s.write payload with
    | error e => exact rewrites_nothing _ t
    | ok bytes =>
      exact ⟨_, rfl, .replaced hStored hWas (hRel payload (by rw [hMutate]))
        (write_eq_ok_iff.1 hBytes)⟩

theorem rewrites_update (call : Call) (name : String) {mutate : Mutation (StateM σ) α}
    {allowCreate : Bool}
    (hStores : (CollectionRequest.one (.write (.update name mutate allowCreate))).Stores rel)
    (hSupported : s.capabilities.supports .update = true) (st : σ) :
    s.Rewrites p rel (some name) st (runOn (s.update call name mutate allowCreate) st).2 := by
  rw [runOn_update hContainer hSupported]
  cases hStored : (p.read st).entries.get? name with
  | some old =>
    dsimp only
    cases hRead : s.read old with
    | error e => exact rewrites_nothing _ st
    | ok was =>
      obtain ⟨payload, hWas, rfl⟩ := read_eq_ok_iff.1 hRead
      obtain ⟨hSame, hRel⟩ := hStores (some payload) st
      exact rewrites_replace hContainer hStored hWas hSame (hRel nofun)
  | none =>
    cases allowCreate with
    | false => exact rewrites_nothing _ st
    | true =>
      obtain ⟨hSame, hRel⟩ := hStores none st
      simp only [if_true]
      cases checkedName name with
      | error e => exact rewrites_nothing _ st
      | ok _ =>
        rcases hMutate : runOn (mutate none) st with ⟨e | payload, t⟩ <;>
          obtain rfl : t = st := by rw [hMutate] at hSame; exact hSame
        · exact rewrites_nothing _ t
        · exact rewrites_createEntry hContainer call.birth name
            (hRel (fun _ => rfl) payload (by rw [hMutate])) t

theorem rewrites_delete (name : String) (hSupported : s.capabilities.supports .delete = true)
    (st : σ) : s.Rewrites p rel (some name) st (runOn (s.delete name) st).2 := by
  rw [runOn_delete hContainer hSupported]
  cases (p.read st).entries.get? name with
  | none => exact rewrites_nothing _ st
  | some old =>
    dsimp only
    cases s.read old with
    | error e => exact rewrites_nothing _ st
    | ok was => exact ⟨_, rfl, .removed name⟩

/-- A request that is not supported does nothing; of the others only writes and deletions touch an
entry. -/
theorem rewrites_request (call : Call) {q : CollectionRequest σ α} (hStores : q.Stores rel)
    (st : σ) :
    s.Rewrites p rel (q.written? call) st (runOn (q.run s.store call) st).2 := by
  cases hSupported : s.capabilities.supports q.verb with
  | false =>
    rw [CollectionRequest.runOn_refused hSupported]
    exact rewrites_nothing _ st
  | true =>
    match q with
    | .one (.get name) =>
      simp only [CollectionRequest.run, StoreRequest.run, store, runOn_map,
        runOn_get hContainer hSupported]
      exact rewrites_nothing _ st
    | .one (.write (.create r)) =>
      simp only [CollectionRequest.run, StoreRequest.run, Write.run, store, runOn_map]
      exact rewrites_create hContainer call hStores hSupported st
    | .one (.write (.update name mutate allowCreate)) =>
      simp only [CollectionRequest.run, StoreRequest.run, Write.run, store, runOn_map]
      exact rewrites_update hContainer call name hStores hSupported st
    | .one (.delete name) =>
      simp only [CollectionRequest.run, StoreRequest.run, store, runOn_map]
      exact rewrites_delete hContainer name hSupported st
    | .list options =>
      simp only [CollectionRequest.run, store, runOn_map, runOn_list hContainer hSupported]
      split <;> exact rewrites_nothing _ st
    | .watch options =>
      simp only [CollectionRequest.run, store, runOn_map, runOn_watch hContainer hSupported]
      exact ⟨_, rfl, .same _⟩

end BlobStore

/-! ## Behind an authorizer -/

namespace Store

variable {authorizer : Authorizer (StateM σ)} (hPassive : authorizer.IsPassive)

include hPassive

theorem visible_state (actor : Actor) (collection : Collection) (items : List (Resource α))
    (st : σ) : ((visible authorizer actor collection items).run st).2 = st := by
  induction items with
  | nil => rfl
  | cons item items ih =>
    have hSame := hPassive (.forName actor .get collection item.name) st
    simp only [visible, run_bind, run_pure, Authorizer.run_maySee, hSame, ih]

theorem restrict_state (actor : Actor) (collection : Collection) (watchBuffer : Nat)
    (reply : Reply σ α) (st : σ) :
    ((reply.restrict authorizer actor collection watchBuffer).run st).2 = st := by
  cases reply with
  | outcome o => rfl
  | page p => simp only [Reply.restrict, run_bind, run_pure, visible_state hPassive]
  | watch w => rfl

theorem authorized_state (inner : Store (StateM σ) α) (watchBuffer : Nat) (call : Call)
    (q : CollectionRequest σ α) (st : σ) :
    (runOn (q.run (inner.authorized authorizer watchBuffer) call) st).2 = st ∨
      (runOn (q.run (inner.authorized authorizer watchBuffer) call) st).2 =
        (runOn (q.run inner call) st).2 := by
  rw [CollectionRequest.runOn_authorized]
  split
  · have hSame := hPassive (q.question inner.collection call) st
    rcases hAnswer : runOn (authorizer (q.question inner.collection call)) st with
      ⟨e | _ | reason, t⟩ <;> obtain rfl : t = st := by rw [hAnswer] at hSame; exact hSame
    · exact .inl rfl
    · refine .inr ?_
      simp only [runOn_bind]
      rcases runOn (q.run inner call) t with ⟨e | reply, u⟩
      · rfl
      · simp only [runOn_lift, restrict_state hPassive]
    · exact .inl rfl
  · exact .inl rfl

end Store

end Tenancy
