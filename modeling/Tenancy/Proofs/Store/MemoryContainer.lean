import Tenancy.Proofs.Operation
import Tenancy.Proofs.SortedMap
import Tenancy.Store.Memory

/-!
# Writing to containers in memory

What each operation of a container does, the failures included.  A failed operation leaves the
container as it is; a successful write is one `commit`.
-/

namespace Tenancy

namespace MemoryContainer

variable (c : MemoryContainer)

@[simp]
theorem commit_entries (entries : SortedMap String Entry) (e : Event Entry) :
    (c.commit entries e).entries = entries := rfl

@[simp]
theorem commit_revision (entries : SortedMap String Entry) (e : Event Entry) :
    (c.commit entries e).revision = c.revision + 1 := rfl

@[simp]
theorem commit_bus (entries : SortedMap String Entry) (e : Event Entry) :
    (c.commit entries e).bus = c.bus.publish e := rfl

def newEntry (birth : Birth) (name : String) (bytes : Bytes) : Entry :=
  ⟨name, bytes, birth.uid, birth.time, c.nextVersion⟩

def patchedEntry (old : Entry) (bytes : Bytes) : Entry :=
  { old with bytes := bytes, version := c.nextVersion }

def removedEntry (old : Entry) : Entry := { old with version := c.nextVersion }

def afterCreate (birth : Birth) (name : String) (bytes : Bytes) : MemoryContainer :=
  c.commit (c.entries.insert name (c.newEntry birth name bytes))
    (.added (c.newEntry birth name bytes))

def afterPatch (name : String) (old : Entry) (bytes : Bytes) : MemoryContainer :=
  c.commit (c.entries.insert name (c.patchedEntry old bytes)) (.modified (c.patchedEntry old bytes))

def afterDelete (name : String) (old : Entry) : MemoryContainer :=
  c.commit (c.entries.erase name) (.deleted (c.removedEntry old))

@[simp]
theorem afterCreate_entries (birth : Birth) (name : String) (bytes : Bytes) :
    (c.afterCreate birth name bytes).entries =
      c.entries.insert name (c.newEntry birth name bytes) := rfl

@[simp]
theorem afterPatch_entries (name : String) (old : Entry) (bytes : Bytes) :
    (c.afterPatch name old bytes).entries = c.entries.insert name (c.patchedEntry old bytes) := rfl

@[simp]
theorem afterDelete_entries (name : String) (old : Entry) :
    (c.afterDelete name old).entries = c.entries.erase name := rfl

theorem runOn_getEntry (name : String) :
    runOn (MemoryContainer.get name) c =
      match c.entries.get? name with
      | some entry => (.ok entry, c)
      | none => (.error (.notFound name), c) := by
  simp only [MemoryContainer.get, runOn_bind, runOn_getThe]
  cases c.entries.get? name <;> simp

theorem runOn_create (birth : Birth) (name : String) (bytes : Bytes) :
    runOn (create birth name bytes) c =
      if c.entries.contains name then (.error (.alreadyExists name), c)
      else (.ok (c.newEntry birth name bytes), c.afterCreate birth name bytes) := by
  simp only [create, runOn_bind, runOn_getThe]
  split <;> simp_all [newEntry, afterCreate]

theorem runOn_patch (name : String) (bytes : Bytes) :
    runOn (patch name bytes) c =
      match c.entries.get? name with
      | none => (.error (.notFound name), c)
      | some old => (.ok (c.patchedEntry old bytes), c.afterPatch name old bytes) := by
  simp only [patch, runOn_bind, runOn_getThe]
  cases c.entries.get? name <;> simp [patchedEntry, afterPatch]

theorem runOn_delete (name : String) :
    runOn (delete name) c =
      match c.entries.get? name with
      | none => (.error (.notFound name), c)
      | some old => (.ok (c.removedEntry old), c.afterDelete name old) := by
  simp only [delete, runOn_bind, runOn_getThe]
  cases c.entries.get? name <;> simp [removedEntry, afterDelete]

end MemoryContainer

end Tenancy
