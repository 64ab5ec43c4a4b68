import Tenancy.Proofs.Store.MemoryContainer
import Tenancy.Store.Blob

/-!
# Calls to stores over containers in memory, step by step

What each call to a store does from a given state, with the error of every check on the way, for
mutations of any kind.  A call of a verb that the store does not support is refused before anything
else (`Capabilities.runOn_require`); the other lemmas are about the supported ones.
-/

namespace Tenancy

variable {σ α β : Type}

namespace Capabilities

variable {c : Capabilities} {verb : Verb}

theorem require_eq_ok (hSupported : c.supports verb = true) : c.require verb = .ok () :=
  if_pos hSupported

theorem runOn_require (hUnsupported : c.supports verb = false)
    (x : Unit → ExceptT StoreError (StateM σ) β) (st : σ) :
    runOn (liftM (c.require verb) >>= x) st = (.error (.methodNotSupported verb), st) := by
  have hRefused : c.require verb = .error (.methodNotSupported verb) :=
    if_neg (Bool.eq_false_iff.1 hUnsupported)
  rw [runOn_bind, runOn_ofExcept, hRefused]

end Capabilities

namespace BlobStore

open Capabilities (require_eq_ok)

/-! ## Single steps -/

theorem read_eq_ok_iff {m : Type → Type} {s : BlobStore m α} {entry : Entry} {r : Resource α} :
    s.read entry = .ok r ↔ ∃ payload, s.codec.decode entry.bytes = .ok payload ∧
      r = ⟨metadataOf entry, payload⟩ := by
  rw [read, payloadOf]
  cases s.codec.decode entry.bytes <;> simp [eq_comm]

theorem read_eq_error {m : Type → Type} {s : BlobStore m α} {entry : Entry} {fault : CodecError}
    (hDecode : s.codec.decode entry.bytes = .error fault) :
    s.read entry = .error (.internal ("decoding " ++ s.collection.text ++ " \"" ++ entry.name ++
      "\": " ++ fault.message)) := by
  rw [read, payloadOf, hDecode]
  rfl

theorem read_name {m : Type → Type} {s : BlobStore m α} {entry : Entry} {r : Resource α}
    (hRead : s.read entry = .ok r) : r.name = entry.name := by
  obtain ⟨payload, -, rfl⟩ := read_eq_ok_iff.1 hRead
  rfl

theorem write_eq_ok_iff {m : Type → Type} {s : BlobStore m α} {payload : α} {bytes : Bytes} :
    s.write payload = .ok bytes ↔ s.codec.encode payload = .ok bytes := by
  rw [write]
  cases s.codec.encode payload <;> simp

variable {s : BlobStore (StateM σ) α} {p : Part σ MemoryContainer}

theorem checkedName_eq_ok {name : String} (hName : checkedName name = .ok ()) :
    isValidName name = true := by
  rw [checkedName] at hName
  rw [isValidName]
  cases hCheck : checkName name <;> simp_all [Except.toBool]

/-! ## Calls -/

theorem runOn_create (hSupported : s.capabilities.supports .create = true) (call : Call)
    (r : Resource α) (st : σ) :
    runOn (s.create call r) st =
      match checkedName (assignedName call r.metadata) with
      | .error e => (.error e, st)
      | .ok _ => runOn (s.createEntry call.birth (assignedName call r.metadata) r.payload) st := by
  rw [create, runOn_bind, runOn_ofExcept, require_eq_ok hSupported]
  simp only [runOn_bind, runOn_ofExcept]
  cases checkedName (assignedName call r.metadata) <;> rfl

variable (hContainer : s.container = MemoryContainer.container p.cell)

include hContainer

theorem runOn_find (name : String) (st : σ) :
    runOn (s.find name) st =
      match (p.read st).entries.get? name with
      | some entry => ((s.read entry).map some, st)
      | none => (.ok none, st) := by
  simp only [find, runOn_bind, runOn_lift, hContainer, MemoryContainer.container, run_run_eq_runOn,
    runOn_cell, MemoryContainer.runOn_getEntry]
  cases (p.read st).entries.get? name with
  | none => simp
  | some entry =>
    simp only [Part.write_read, runOn_bind, runOn_ofExcept]
    cases s.read entry <;> simp

theorem runOn_get (hSupported : s.capabilities.supports .get = true) (name : String) (st : σ) :
    runOn (s.get name) st =
      (match (p.read st).entries.get? name with
        | some entry => s.read entry
        | none => .error (.notFound s.collection name), st) := by
  rw [get, runOn_bind, runOn_ofExcept, require_eq_ok hSupported]
  simp only [runOn_bind, access, hContainer, MemoryContainer.container, runOn_adapt, runOn_cell,
    MemoryContainer.runOn_getEntry]
  cases (p.read st).entries.get? name with
  | none =>
    simp only [mapError_error, Part.write_read]
    rfl
  | some entry => simp only [mapError_ok, Part.write_read, runOn_ofExcept]

theorem runOn_createEntry (birth : Birth) (name : String) (payload : α) (st : σ) :
    runOn (s.createEntry birth name payload) st =
      match s.write payload with
      | .error e => (.error e, st)
      | .ok bytes =>
        if (p.read st).entries.contains name then (.error (.alreadyExists s.collection name), st)
        else (s.read ((p.read st).newEntry birth name bytes),
          p.write ((p.read st).afterCreate birth name bytes) st) := by
  rw [createEntry, runOn_bind, runOn_ofExcept]
  cases s.write payload with
  | error e => rfl
  | ok bytes =>
    simp only [runOn_bind, access, hContainer, MemoryContainer.container, runOn_adapt, runOn_cell,
      MemoryContainer.runOn_create]
    cases (p.read st).entries.contains name with
    | true =>
      simp only [if_true, mapError_error, Part.write_read]
      rfl
    | false => rfl

/-- The entry that is replaced is looked up after the mutation. -/
theorem runOn_replace (name : String) (was : α) (mutate : Mutation (StateM σ) α) (st : σ) :
    runOn (s.replace name was mutate) st =
      match runOn (mutate (some was)) st with
      | (.error e, t) => (.error e, t)
      | (.ok payload, t) =>
        match s.write payload, (p.read t).entries.get? name with
        | .error e, _ => (.error e, t)
        | .ok _, none => (.error (.notFound s.collection name), t)
        | .ok bytes, some old =>
          (s.read ((p.read t).patchedEntry old bytes),
            p.write ((p.read t).afterPatch name old bytes) t) := by
  rw [replace, runOn_bind]
  rcases runOn (mutate (some was)) st with ⟨e | payload, t⟩
  · rfl
  · simp only [runOn_bind, runOn_ofExcept]
    cases s.write payload with
    | error e => rfl
    | ok bytes =>
      simp only [access, hContainer, MemoryContainer.container, runOn_adapt, runOn_cell,
        MemoryContainer.runOn_patch]
      cases (p.read t).entries.get? name with
      | none =>
        simp only [mapError_error, Part.write_read]
        rfl
      | some old => rfl

theorem runOn_update (hSupported : s.capabilities.supports .update = true) (call : Call)
    (name : String) (mutate : Mutation (StateM σ) α) (allowCreate : Bool) (st : σ) :
    runOn (s.update call name mutate allowCreate) st =
      match (p.read st).entries.get? name with
      | some entry =>
        match s.read entry with
        | .error e => (.error e, st)
        | .ok old =>
          ((runOn (s.replace name old.payload mutate) st).1.map (·, false),
            (runOn (s.replace name old.payload mutate) st).2)
      | none =>
        if allowCreate then
          match checkedName name, runOn (mutate none) st with
          | .error e, _ => (.error e, st)
          | .ok _, (.error e, t) => (.error e, t)
          | .ok _, (.ok payload, t) =>
            ((runOn (s.createEntry call.birth name payload) t).1.map (·, true),
              (runOn (s.createEntry call.birth name payload) t).2)
        else (.error (.notFound s.collection name), st) := by
  rw [update, runOn_bind, runOn_ofExcept, require_eq_ok hSupported]
  simp only [runOn_bind, runOn_find hContainer]
  cases (p.read st).entries.get? name with
  | some entry =>
    dsimp only
    cases s.read entry with
    | error e => rfl
    | ok old =>
      simp only [map_ok, runOn_bind]
      rcases runOn (s.replace name old.payload mutate) st with ⟨_ | _, t⟩ <;> rfl
  | none =>
    cases allowCreate with
    | false => rfl
    | true =>
      simp only [Bool.not_true, Bool.false_eq_true, if_false, if_true, runOn_bind, runOn_ofExcept]
      cases checkedName name with
      | error e => rfl
      | ok _ =>
        dsimp only
        rcases runOn (mutate none) st with ⟨e | payload, t⟩
        · rfl
        · dsimp only
          rcases runOn (s.createEntry call.birth name payload) t with ⟨_ | _, u⟩ <;> rfl

theorem runOn_delete (hSupported : s.capabilities.supports .delete = true) (name : String)
    (st : σ) :
    runOn (s.delete name) st =
      match (p.read st).entries.get? name with
      | none => (.error (.notFound s.collection name), st)
      | some old =>
        match s.read old with
        | .error e => (.error e, st)
        | .ok was => (.ok (was, true), p.write ((p.read st).afterDelete name old) st) := by
  rw [delete, runOn_bind, runOn_ofExcept, require_eq_ok hSupported]
  simp only [runOn_bind, runOn_ofExcept, access, hContainer, MemoryContainer.container, runOn_adapt,
    runOn_cell, MemoryContainer.runOn_getEntry, MemoryContainer.runOn_delete]
  cases hStored : (p.read st).entries.get? name with
  | none =>
    simp only [mapError_error, Part.write_read]
    rfl
  | some old =>
    simp only [mapError_ok, Part.write_read]
    cases s.read old with
    | error e => rfl
    | ok was => simp only [hStored, mapError_ok, runOn_pure]

end BlobStore

end Tenancy
