import Tenancy.Proofs.Store.Authorized
import Tenancy.Proofs.Store.BlobStore

/-!
# Calls that may create

A creation and an update in one form, so that what holds of both is said once.

* `Store.authorized_write`: the call to a store behind an authorizer.
* `BlobStore.write_outcome`: the call to a store over a container in memory, for payloads that the
  codec reads back.
-/

namespace Tenancy

variable {σ α : Type}

/-- A call to a store that may create a resource. -/
inductive Write (σ α : Type) where
  | create (resource : Resource α)
  | update (name : String) (mutate : Mutation (StateM σ) α) (allowCreate : Bool)

namespace Write

def run (w : Write σ α) (store : Store (StateM σ) α) (call : Call) :
    ExceptT StoreError (StateM σ) (Outcome α) :=
  match w with
  | .create resource => (·, true) <$> store.create call resource
  | .update name mutate allowCreate => store.update call name mutate allowCreate

/-- The payloads that the call stores satisfy `good`, and its mutation does nothing but compute. -/
inductive Stores (good : α → Prop) : Write σ α → Prop
  | create (resource : Resource α) (hGood : good resource.payload) : Stores good (.create resource)
  | update (name : String) (mutate : Option α → Except StoreError α) (allowCreate : Bool)
      (hGood : ∀ old payload, mutate old = .ok payload → good payload) :
      Stores good (.update name (.ofFunction mutate) allowCreate)

end Write

namespace Store

theorem authorized_write {authorizer : Authorizer (StateM σ)} (hPassive : authorizer.IsPassive)
    (w : Write σ α) (inner : Store (StateM σ) α) (watchBuffer : Nat) (call : Call) (s : σ) :
    Guarded (w.run inner call) s
      (runOn (w.run (inner.authorized authorizer watchBuffer) call) s) := by
  cases w with
  | update name mutate allowCreate =>
    exact authorized_update hPassive inner watchBuffer call name mutate allowCreate s
  | create resource =>
    have hCreate := authorized_create hPassive inner watchBuffer call resource s
    simp only [Write.run, runOn_map]
    revert hCreate
    generalize runOn ((inner.authorized authorizer watchBuffer).create call resource) s = outcome
    rintro (e | _)
    · exact .refused e
    · have hPassed : Guarded (Write.run (.create resource) inner call) s _ := .passed
      rwa [Write.run, runOn_map] at hPassed

end Store

namespace BlobStore

variable (s : BlobStore (StateM σ) α) (p : Part σ MemoryContainer)

inductive WriteOutcome (call : Call) (st : σ) : Except StoreError (Outcome α) × σ → Prop
  | refused (e : StoreError) : WriteOutcome call st (.error e, st)
  | replaced (name : String) (old : Entry) (payload : α) (bytes : Bytes)
      (hStored : (p.read st).entries.get? name = some old) :
      WriteOutcome call st
        (.ok (⟨metadataOf ((p.read st).patchedEntry old bytes), payload⟩, false),
          p.write ((p.read st).afterPatch name old bytes) st)
  | created (name : String) (payload : α) (bytes : Bytes)
      (hAbsent : (p.read st).entries.get? name = none)
      (hRead : s.read ((p.read st).newEntry call.birth name bytes) =
        .ok ⟨metadataOf ((p.read st).newEntry call.birth name bytes), payload⟩) :
      WriteOutcome call st
        (.ok (⟨metadataOf ((p.read st).newEntry call.birth name bytes), payload⟩, true),
          p.write ((p.read st).afterCreate call.birth name bytes) st)

variable {s p}

theorem write_outcome (hContainer : s.container = MemoryContainer.container p.cell)
    {w : Write σ α} (hStores : w.Stores s.codec.RoundTrips) (call : Call) (st : σ) :
    s.WriteOutcome p call st (runOn (w.run s.store call) st) := by
  cases hStores with
  | create resource hTrip =>
    have hCreate := create_outcome hContainer call resource st
    simp only [Write.run, store, runOn_map]
    revert hCreate
    generalize runOn (s.create call resource) st = outcome
    rintro (e | ⟨bytes, -, hAbsent, hBytes⟩)
    · exact .refused e
    · have hRead := read_of_roundTrips
        ((p.read st).newEntry call.birth (assignedName call resource.metadata) bytes) hTrip hBytes
        rfl
      rw [hRead]
      exact .created _ _ bytes hAbsent hRead
  | update name mutate allowCreate hTrip =>
    have hUpdate := update_outcome hContainer call name mutate allowCreate st
    simp only [Write.run, store]
    revert hUpdate
    generalize runOn (s.update call name (.ofFunction mutate) allowCreate) st = outcome
    rintro (e | ⟨old, was, payload, bytes, hStored, -, hMutate, hBytes⟩ |
      ⟨payload, bytes, -, -, hAbsent, hMutate, hBytes⟩)
    · exact .refused e
    · rw [read_of_roundTrips ((p.read st).patchedEntry old bytes) (hTrip _ _ hMutate) hBytes rfl]
      exact .replaced name old payload bytes hStored
    · have hRead := read_of_roundTrips ((p.read st).newEntry call.birth name bytes)
        (hTrip _ _ hMutate) hBytes rfl
      rw [hRead]
      exact .created name payload bytes hAbsent hRead

end BlobStore

end Tenancy
