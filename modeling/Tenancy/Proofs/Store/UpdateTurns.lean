import Tenancy.Proofs.Fiber
import Tenancy.Proofs.Store.BlobStore
import Tenancy.Proofs.Store.Request

/-!
# Updates in turns

An update reads the entry, applies the mutation and replaces the bytes, and others may come before
each of these two calls of the container.  So an update of an existing name takes two turns: in the
first it reads and applies the mutation, in the second it writes, whatever has been written since.

* `UpdateCall.turn_fiber`: the first turn; `Armed`: what the second one will do.
* `BlobStore.run_get`: a reading takes one turn.
-/

namespace Tenancy

open BlobStore (metadataOf)

variable {τ α : Type}

/-- The container beside the state of the mutations; before each call of it others may run. -/
def MemoryContainer.paused : Container (Fiber (MemoryContainer × τ)) :=
  MemoryContainer.container ⟨fun x => .pause (.ofState (besideMutations.cell.access x))⟩

def Mutation.inFiber (mutate : Mutation (StateM τ) α) : Mutation (Fiber (MemoryContainer × τ)) α :=
  fun old => ExceptT.mk (.ofState (ofMutations.cell.access (mutate old).run))

structure UpdateCall (τ α : Type) where
  call : Call
  mutate : Mutation (StateM τ) α
  allowCreate : Bool

/-- A call that is under way, or what remains of it. -/
abbrev Remaining (τ α : Type) := Fiber (MemoryContainer × τ) (Except StoreError (Outcome α))

namespace UpdateCall

def fiber (s : BlobStore (Fiber (MemoryContainer × τ)) α) (name : String) (u : UpdateCall τ α) :
    Remaining τ α :=
  (s.update u.call name u.mutate.inFiber u.allowCreate).run

/-- The mutation makes something of every payload. -/
def IsTotal (u : UpdateCall τ α) : Prop :=
  ∀ old t, ∃ new t', runOn (u.mutate (some old)) t = (.ok new, t')

end UpdateCall

/-- In its next turn the call replaces the bytes of the entry that there is then, and returns the
entry as it is stored now. -/
def Armed (s : BlobStore (Fiber (MemoryContainer × τ)) α) (name : String) (bytes : Bytes)
    (x : Remaining τ α) : Prop :=
  ∀ c t entry payload, c.entries.get? name = some entry → s.codec.decode bytes = .ok payload →
    x.turn.run (c, t) = (.inl (.ok (⟨metadataOf (c.patchedEntry entry bytes), payload⟩, false)),
      c.afterPatch name entry bytes, t)

section

variable {s : BlobStore (Fiber (MemoryContainer × τ)) α} {name : String} {u : UpdateCall τ α}
  {c : MemoryContainer} {t t' : τ} {entry : Entry} {old new : α} {bytes : Bytes}
  (hContainer : s.container = MemoryContainer.paused)

/-- An operation of the container, once it is reached. -/
theorem runToPause_access {β : Type} (op : MemoryContainer.Op β) (c : MemoryContainer) (t : τ) :
    (Fiber.ofState (besideMutations.cell.access op)).runToPause (c, t) =
      (.inl (runOn op c).1, (runOn op c).2, t) := rfl

/-- What remains of an update at the pause before the writing. -/
theorem armed_remaining (name : String) (bytes : Bytes) :
    Armed s name bytes ((((Fiber.ofState (besideMutations.cell.access
      (MemoryContainer.patch name bytes))).bind fun result =>
        .done (result.mapError (ContainerError.toStoreError s.collection))).bind
        (ExceptT.bindCont fun entry => liftM (s.read entry))).bind
        (ExceptT.bindCont fun r => pure (r, false))) := by
  intro c t entry payload hStored hDecode
  have hRead : s.read (c.patchedEntry entry bytes) =
      .ok ⟨metadataOf (c.patchedEntry entry bytes), payload⟩ :=
    BlobStore.read_eq_ok_iff.2 ⟨payload, hDecode, rfl⟩
  have hPatch := runToPause_access (MemoryContainer.patch name bytes) c t
  rw [MemoryContainer.runOn_patch, hStored] at hPatch
  have hAccess := Fiber.runToPause_bind_done hPatch fun result =>
    .done (result.mapError (ContainerError.toStoreError s.collection))
  have hReading := (Fiber.runToPause_bind_done hAccess
    (ExceptT.bindCont fun entry => liftM (s.read entry))).trans
      ((Fiber.upTo_ofExcept _ _).trans (by rw [hRead]))
  exact Fiber.runToPause_bind_done hReading _

include hContainer

/-- The store looks up the entry at the pause before the look-up. -/
theorem find_paused (t : τ) {r : Resource α} (hStored : c.entries.get? name = some entry)
    (hRead : s.read entry = .ok r) :
    ∃ rest, (s.find name).run = .pause rest ∧
      rest.runToPause (c, t) = (.inl (.ok (some r)), c, t) := by
  have hGet := MemoryContainer.runOn_getEntry c name
  rw [hStored] at hGet
  have hAccess := runToPause_access (MemoryContainer.get name) c t
  rw [hGet] at hAccess
  have hReading : Fiber.upTo (do return some (← s.read entry) :
      ExceptT StoreError (Fiber (MemoryContainer × τ)) _) (c, t) = (.inl (.ok (some r)), c, t) :=
    Fiber.upTo_bind_ok ((Fiber.upTo_ofExcept _ _).trans (by rw [hRead]))
  simp only [BlobStore.find, hContainer, MemoryContainer.paused, MemoryContainer.container]
  refine ⟨_, rfl, ?_⟩
  refine (Fiber.runToPause_bind_done (Fiber.runToPause_bind_done hAccess _) _).trans ?_
  exact hReading

/-- After the reading, the update comes to the pause before the writing. -/
theorem replace_armed (name : String) (c : MemoryContainer)
    (hMutate : runOn (u.mutate (some old)) t = (.ok new, t'))
    (hBytes : s.codec.encode new = .ok bytes) :
    ∃ rest, Fiber.upTo (do return (← s.replace name old u.mutate.inFiber, false)) (c, t) =
      (.inr rest, c, t') ∧ Armed s name bytes rest := by
  have hMutation : Fiber.upTo (u.mutate.inFiber (some old)) (c, t) = (.inl (.ok new), c, t') := by
    have hRun := runOn_cell (ofMutations (τ := τ)) (u.mutate (some old)) (c, t)
    simp only [ofMutations, hMutate] at hRun
    exact congrArg (fun run => (Sum.inl run.1, run.2)) hRun
  have hWrite : Fiber.upTo (liftM (s.write new) : ExceptT StoreError (Fiber _) Bytes) (c, t') =
      (.inl (.ok bytes), c, t') := by
    rw [Fiber.upTo_ofExcept, BlobStore.write_eq_ok_iff.2 hBytes]
  refine ⟨_, Fiber.upTo_bind_pause ?_, armed_remaining name bytes⟩
  rw [BlobStore.replace, hContainer]
  refine (Fiber.upTo_bind_ok hMutation).trans ((Fiber.upTo_bind_ok hWrite).trans ?_)
  exact Fiber.upTo_bind_pause rfl

/-- The first turn of an update of an entry that can be read. -/
theorem UpdateCall.turn_fiber (hSupported : s.capabilities.supports .update = true)
    (hStored : c.entries.get? name = some entry) (hDecode : s.codec.decode entry.bytes = .ok old)
    (hMutate : runOn (u.mutate (some old)) t = (.ok new, t'))
    (hBytes : s.codec.encode new = .ok bytes) :
    ∃ rest, (u.fiber s name).turn.run (c, t) = (.inr rest, c, t') ∧ Armed s name bytes rest := by
  have hRead : s.read entry = .ok ⟨metadataOf entry, old⟩ :=
    BlobStore.read_eq_ok_iff.2 ⟨old, hDecode, rfl⟩
  obtain ⟨rest, hPaused, hFind⟩ := find_paused hContainer t hStored hRead
  obtain ⟨armed, hReplace, hArmed⟩ := replace_armed hContainer name c hMutate hBytes
  refine ⟨armed, ?_, hArmed⟩
  rw [fiber, BlobStore.update, Capabilities.require_eq_ok hSupported]
  exact (Fiber.turn_bind_ok hPaused hFind).trans hReplace

/-- A reading takes one turn. -/
theorem BlobStore.run_get (hSupported : s.capabilities.supports .get = true) (t : τ)
    (hStored : c.entries.get? name = some entry) (hDecode : s.codec.decode entry.bytes = .ok old) :
    (s.get name).run.run (c, t) = (.ok ⟨metadataOf entry, old⟩, c, t) := by
  have hRead : s.read entry = .ok ⟨metadataOf entry, old⟩ :=
    BlobStore.read_eq_ok_iff.2 ⟨old, hDecode, rfl⟩
  have hGet := MemoryContainer.runOn_getEntry c name
  rw [hStored] at hGet
  have hAccess := runToPause_access (MemoryContainer.get name) c t
  rw [hGet] at hAccess
  refine Fiber.run_of_turn ?_
  rw [BlobStore.get, Capabilities.require_eq_ok hSupported, hContainer]
  refine (Fiber.turn_bind_ok (x := s.access (MemoryContainer.paused.get name)) rfl
    (Fiber.runToPause_bind_done hAccess _)).trans ?_
  rw [Fiber.upTo_ofExcept, hRead]

end

end Tenancy
