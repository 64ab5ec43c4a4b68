import Tenancy.Access.Grant
import Tenancy.Cell
import Tenancy.Store.Container

/-!
# Ordered failures

To see what stores make of failures, operations of a container or of a keeper of grants can be made
to fail: each failure that has been ordered for an operation is met by one call of it, in the order
in which they were ordered, and that call does nothing else.
-/

namespace Tenancy

/-- The failures that have been ordered for operations named by `κ`. -/
structure FaultQueue (κ ε : Type) where
  ordered : List (κ × ε) := []

namespace FaultQueue

variable {κ ε : Type}

def order (op : κ) (e : ε) (q : FaultQueue κ ε) : FaultQueue κ ε := ⟨q.ordered ++ [(op, e)]⟩

/-- The list without its first element that satisfies `p`, and that element. -/
def takeFirst {α : Type} (p : α → Bool) : List α → Option α × List α
  | [] => (none, [])
  | x :: xs =>
    if p x then (some x, xs)
    else
      let (found, rest) := takeFirst p xs
      (found, x :: rest)

/-- The next failure that an operation meets, if there is one. -/
def next [DecidableEq κ] (op : κ) : StateM (FaultQueue κ ε) (Option ε) := fun q =>
  let (found, rest) := takeFirst (fun f => f.1 = op) q.ordered
  (found.map (·.2), ⟨rest⟩)

/-- The operation `x` if no failure is ordered for it. -/
def guarded {m : Type → Type} [Monad m] [DecidableEq κ] (cell : Cell m (FaultQueue κ ε)) (op : κ)
    {α : Type} (x : ExceptT ε m α) : ExceptT ε m α := do
  match ← ExceptT.lift (cell.access (next op)) with
  | some e => throw e
  | none => x

end FaultQueue

inductive ContainerOp where
  | get
  | create
  | patch
  | delete
  | list
  | watch
  deriving DecidableEq

/-- The container `inner` with ordered failures.  After every entry that is read, `afterGet` is
run. -/
def Container.withFaults {m : Type → Type} [Monad m] (inner : Container m)
    (faults : Cell m (FaultQueue ContainerOp ContainerError)) (afterGet : m Unit) :
    Container m where
  get name := FaultQueue.guarded faults .get do
    let result ← ExceptT.lift (inner.get name).run
    ExceptT.lift afterGet
    ofExcept result
  create birth name bytes := FaultQueue.guarded faults .create (inner.create birth name bytes)
  patch name bytes := FaultQueue.guarded faults .patch (inner.patch name bytes)
  delete name := FaultQueue.guarded faults .delete (inner.delete name)
  list options := FaultQueue.guarded faults .list (inner.list options)
  watch options := FaultQueue.guarded faults .watch (inner.watch options)

inductive GrantOp where
  | createRole
  | getRole
  | deleteRole
  | createBinding
  | getBinding
  | deleteBinding
  deriving DecidableEq

/-- The keeper of grants `inner` with ordered failures. -/
def Grants.withFaults {m : Type → Type} [Monad m] (inner : Grants m)
    (faults : Cell m (FaultQueue GrantOp GrantError)) : Grants m where
  createRole role := FaultQueue.guarded faults .createRole (inner.createRole role)
  getRole name := FaultQueue.guarded faults .getRole (inner.getRole name)
  deleteRole name := FaultQueue.guarded faults .deleteRole (inner.deleteRole name)
  createBinding binding := FaultQueue.guarded faults .createBinding (inner.createBinding binding)
  getBinding name := FaultQueue.guarded faults .getBinding (inner.getBinding name)
  deleteBinding name := FaultQueue.guarded faults .deleteBinding (inner.deleteBinding name)

end Tenancy
