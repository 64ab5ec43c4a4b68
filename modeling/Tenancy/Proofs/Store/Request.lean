import Tenancy.Proofs.Store.BlobCalls
import Tenancy.Proofs.Store.Write

/-!
# Requests about one resource

Reads, calls that may create, and deletions in one form, so that what holds of all of them is said
once and runs of requests can be spoken of.
-/

namespace Tenancy

variable {σ τ α : Type}

def Write.on (p : Part σ τ) : Write τ α → Write σ α
  | .create resource => .create resource
  | .update name mutate allowCreate =>
    .update name (fun old => p.cell.access (mutate old)) allowCreate

inductive StoreRequest (σ α : Type) where
  | get (name : String)
  | write (w : Write σ α)
  | delete (name : String)

namespace StoreRequest

def verb : StoreRequest σ α → Verb
  | .get _ => .get
  | .write (.create _) => .create
  | .write (.update ..) => .update
  | .delete _ => .delete

/-- The name that the request is about; a creation may have it generated. -/
def target (call : Call) : StoreRequest σ α → String
  | .get name => name
  | .write (.create r) => BlobStore.assignedName call r.metadata
  | .write (.update name ..) => name
  | .delete name => name

/-- The request made to a store; the outcome says whether the resource was created or removed. -/
def run (q : StoreRequest σ α) (store : Store (StateM σ) α) (call : Call) :
    ExceptT StoreError (StateM σ) (Outcome α) :=
  match q with
  | .get name => (·, false) <$> store.get call name
  | .write w => w.run store call
  | .delete name => store.delete call name

def on (p : Part σ τ) : StoreRequest τ α → StoreRequest σ α
  | .get name => .get name
  | .write w => .write (w.on p)
  | .delete name => .delete name

theorem verb_on (p : Part σ τ) (q : StoreRequest τ α) : (q.on p).verb = q.verb := by
  match q with
  | .get _ => rfl
  | .write (.create _) => rfl
  | .write (.update ..) => rfl
  | .delete _ => rfl

def runAll (store : Store (StateM σ) α) :
    List (Call × StoreRequest σ α) → σ → List (Except StoreError (Outcome α)) × σ
  | [], st => ([], st)
  | (call, q) :: requests, st =>
    let (result, st) := runOn (q.run store call) st
    let (results, st) := runAll store requests st
    (result :: results, st)

end StoreRequest

/-! ## Mutations with a state of their own -/

/-- The container that is kept beside the state of the mutations. -/
def besideMutations : Part (MemoryContainer × τ) MemoryContainer where
  read st := st.1
  write c st := (c, st.2)
  read_write _ _ := rfl
  write_read _ := rfl
  write_write _ _ _ := rfl

def ofMutations : Part (MemoryContainer × τ) τ where
  read st := st.2
  write t st := (st.1, t)
  read_write _ _ := rfl
  write_read _ := rfl
  write_write _ _ _ := rfl

/-! ## Refusals -/

theorem BlobStore.runOn_unsupported (s : BlobStore (StateM σ) α) {q : StoreRequest σ α}
    (hUnsupported : s.capabilities.supports q.verb = false) (call : Call) (st : σ) :
    runOn (q.run s.store call) st = (.error (.methodNotSupported q.verb), st) := by
  match q with
  | .get name =>
    have hRun : runOn (s.get name) st = _ := Capabilities.runOn_require hUnsupported _ st
    simp only [StoreRequest.run, store, runOn_map, hRun, map_error]
  | .write (.create r) =>
    have hRun : runOn (s.create call r) st = _ := Capabilities.runOn_require hUnsupported _ st
    simp only [StoreRequest.run, Write.run, store, runOn_map, hRun, map_error]
  | .write (.update name mutate allowCreate) => exact Capabilities.runOn_require hUnsupported _ st
  | .delete name => exact Capabilities.runOn_require hUnsupported _ st

end Tenancy
