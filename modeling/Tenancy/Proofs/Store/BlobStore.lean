import Tenancy.Proofs.Store.BlobCalls

/-!
# Writing to stores over containers in memory

A write of a store either is refused and leaves the state as it is, or is exactly one write of the
container, after which the stored entry is read back.  `CreateOutcome`, `UpdateOutcome` and
`DeleteOutcome` list these ends of a write, each with all that has been checked on the way.

* `BlobStore.create_outcome`, `BlobStore.update_outcome`, `BlobStore.delete_outcome`: every run has
  one of them.
* `Codec.RoundTrips`: the codec reads back what it writes of a payload; then reading back succeeds
  (`BlobStore.read_of_roundTrips`).
-/

namespace Tenancy

/-- The codec reads back what it writes of a payload. -/
def Codec.RoundTrips {α : Type} (codec : Codec α) (payload : α) : Prop :=
  ∀ bytes, codec.encode payload = .ok bytes → codec.decode bytes = .ok payload

def Mutation.ofFunction {σ α : Type} (mutate : Option α → Except StoreError α) :
    Mutation (StateM σ) α := fun old => liftM (mutate old)

namespace BlobStore

variable {σ α : Type} (s : BlobStore (StateM σ) α) (p : Part σ MemoryContainer)

/-! ## The ends of a write -/

inductive CreateOutcome (birth : Birth) (name : String) (payload : α) (st : σ) :
    Except StoreError (Resource α) × σ → Prop
  | refused (e : StoreError) : CreateOutcome birth name payload st (.error e, st)
  | stored (bytes : Bytes) (hName : isValidName name = true)
      (hAbsent : (p.read st).entries.get? name = none)
      (hBytes : s.codec.encode payload = .ok bytes) :
      CreateOutcome birth name payload st
        (s.read ((p.read st).newEntry birth name bytes),
          p.write ((p.read st).afterCreate birth name bytes) st)

inductive UpdateOutcome (birth : Birth) (name : String)
    (mutate : Option α → Except StoreError α) (allowCreate : Bool) (st : σ) :
    Except StoreError (Outcome α) × σ → Prop
  | refused (e : StoreError) : UpdateOutcome birth name mutate allowCreate st (.error e, st)
  | replaced (old : Entry) (was payload : α) (bytes : Bytes)
      (hStored : (p.read st).entries.get? name = some old)
      (hWas : s.codec.decode old.bytes = .ok was) (hMutate : mutate (some was) = .ok payload)
      (hBytes : s.codec.encode payload = .ok bytes) :
      UpdateOutcome birth name mutate allowCreate st
        ((s.read ((p.read st).patchedEntry old bytes)).map (·, false),
          p.write ((p.read st).afterPatch name old bytes) st)
  | created (payload : α) (bytes : Bytes) (hAllow : allowCreate = true)
      (hName : isValidName name = true) (hAbsent : (p.read st).entries.get? name = none)
      (hMutate : mutate none = .ok payload) (hBytes : s.codec.encode payload = .ok bytes) :
      UpdateOutcome birth name mutate allowCreate st
        ((s.read ((p.read st).newEntry birth name bytes)).map (·, true),
          p.write ((p.read st).afterCreate birth name bytes) st)

inductive DeleteOutcome (name : String) (st : σ) : Except StoreError (Outcome α) × σ → Prop
  | refused (e : StoreError) : DeleteOutcome name st (.error e, st)
  | removed (old : Entry) (was : Resource α) (hStored : (p.read st).entries.get? name = some old)
      (hWas : s.read old = .ok was) :
      DeleteOutcome name st
        (.ok (was, true), p.write ((p.read st).afterDelete name old) st)

/-! ## Reading -/

variable {s p}

theorem read_of_roundTrips (entry : Entry) {payload : α} {bytes : Bytes}
    (hTrip : s.codec.RoundTrips payload) (hBytes : s.codec.encode payload = .ok bytes)
    (hEntry : entry.bytes = bytes) :
    s.read entry = .ok ⟨metadataOf entry, payload⟩ :=
  read_eq_ok_iff.2 ⟨payload, hEntry ▸ hTrip bytes hBytes, rfl⟩

/-! ## Every run has an end -/

variable (hContainer : s.container = MemoryContainer.container p.cell)

include hContainer

theorem createEntry_outcome (birth : Birth) {name : String} (hName : isValidName name = true)
    (payload : α) (st : σ) :
    s.CreateOutcome p birth name payload st (runOn (s.createEntry birth name payload) st) := by
  rw [runOn_createEntry hContainer]
  cases hBytes : s.write payload with
  | error e => exact .refused e
  | ok bytes =>
    cases hStored : (p.read st).entries.contains name with
    | true =>
      simp only [if_true]
      exact .refused _
    | false =>
      simp only [Bool.false_eq_true, if_false]
      exact .stored bytes hName (SortedMap.contains_eq_false_iff.1 hStored)
        (write_eq_ok_iff.1 hBytes)

theorem create_outcome (call : Call) (r : Resource α) (st : σ) :
    s.CreateOutcome p call.birth (assignedName call r.metadata) r.payload st
      (runOn (s.create call r) st) := by
  cases hSupported : s.capabilities.supports .create with
  | false =>
    have hRefused : runOn (s.create call r) st = _ := Capabilities.runOn_require hSupported _ st
    rw [hRefused]
    exact .refused _
  | true =>
    rw [runOn_create hSupported]
    cases hName : checkedName (assignedName call r.metadata) with
    | error e => exact .refused e
    | ok _ => exact createEntry_outcome hContainer _ (checkedName_eq_ok hName) _ st

theorem replace_outcome (birth : Birth) {name : String} {old : Entry} {was : α}
    (mutate : Option α → Except StoreError α) (allowCreate : Bool) {st : σ}
    (hStored : (p.read st).entries.get? name = some old)
    (hWas : s.codec.decode old.bytes = .ok was) :
    s.UpdateOutcome p birth name mutate allowCreate st
      ((runOn (s.replace name was (.ofFunction mutate)) st).1.map (·, false),
        (runOn (s.replace name was (.ofFunction mutate)) st).2) := by
  rw [runOn_replace hContainer]
  simp only [Mutation.ofFunction, runOn_ofExcept]
  cases hMutate : mutate (some was) with
  | error e => exact .refused e
  | ok payload =>
    simp only [hStored]
    cases hBytes : s.write payload with
    | error e => exact .refused e
    | ok bytes =>
      exact .replaced old was payload bytes hStored hWas hMutate (write_eq_ok_iff.1 hBytes)

theorem update_outcome (call : Call) (name : String) (mutate : Option α → Except StoreError α)
    (allowCreate : Bool) (st : σ) :
    s.UpdateOutcome p call.birth name mutate allowCreate st
      (runOn (s.update call name (.ofFunction mutate) allowCreate) st) := by
  cases hSupported : s.capabilities.supports .update with
  | false =>
    have hRefused : runOn (s.update call name (.ofFunction mutate) allowCreate) st = _ :=
      Capabilities.runOn_require hSupported _ st
    rw [hRefused]
    exact .refused _
  | true =>
    rw [runOn_update hContainer hSupported]
    cases hStored : (p.read st).entries.get? name with
    | some old =>
      dsimp only
      cases hWas : s.read old with
      | error e => exact .refused e
      | ok was =>
        obtain ⟨payload, hDecoded, rfl⟩ := read_eq_ok_iff.1 hWas
        exact replace_outcome hContainer call.birth mutate allowCreate hStored hDecoded
    | none =>
      cases allowCreate with
      | false => exact .refused _
      | true =>
        simp only [if_true, Mutation.ofFunction, runOn_ofExcept]
        cases hName : checkedName name with
        | error e => exact .refused e
        | ok _ =>
          cases hMutate : mutate none with
          | error e => exact .refused e
          | ok payload =>
            have hName := checkedName_eq_ok hName
            have hCreated := createEntry_outcome hContainer call.birth hName payload st
            dsimp only
            revert hCreated
            generalize runOn (s.createEntry call.birth name payload) st = outcome
            rintro (e | ⟨bytes, -, -, hBytes⟩)
            · exact .refused e
            · exact .created payload bytes rfl hName hStored hMutate hBytes

theorem runOn_delete_of_readable (hDelete : s.capabilities.delete = true) {name : String}
    (st : σ) {old : Entry} {was : Resource α} (hStored : (p.read st).entries.get? name = some old)
    (hWas : s.read old = .ok was) :
    runOn (s.delete name) st =
      (.ok (was, true), p.write ((p.read st).afterDelete name old) st) := by
  have hSupported : s.capabilities.supports .delete = true := hDelete
  simp only [runOn_delete hContainer hSupported, hStored, hWas]

theorem delete_outcome (name : String) (st : σ) :
    s.DeleteOutcome p name st (runOn (s.delete name) st) := by
  cases hSupported : s.capabilities.supports .delete with
  | false =>
    have hRefused : runOn (s.delete name) st = _ := Capabilities.runOn_require hSupported _ st
    rw [hRefused]
    exact .refused _
  | true =>
    rw [runOn_delete hContainer hSupported]
    cases hStored : (p.read st).entries.get? name with
    | none => exact .refused _
    | some old =>
      dsimp only
      cases hWas : s.read old with
      | error e => exact .refused e
      | ok was => exact .removed old was hStored hWas

end BlobStore

end Tenancy
