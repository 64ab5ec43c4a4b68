/-!
# Interleaved computations

A fiber is a computation on a shared state that is cut into pieces: at a `pause` others may run.
`Fiber.run` runs a fiber alone, `Fiber.race` runs two of them in turn, each up to its next pause.
-/

namespace Tenancy

/-- A computation on a state of type `σ` with pauses. -/
inductive Fiber (σ α : Type) where
  | done (result : α)
  /-- Changes the state by `next` and goes on with what `rest` makes of the state before. -/
  | act (next : σ → σ) (rest : σ → Fiber σ α)
  | pause (rest : Fiber σ α)

namespace Fiber

variable {σ α β : Type}

def bind (f : α → Fiber σ β) : Fiber σ α → Fiber σ β
  | .done a => f a
  | .act next rest => .act next fun s => (rest s).bind f
  | .pause rest => .pause (rest.bind f)

instance : Monad (Fiber σ) where
  pure := .done
  bind x f := x.bind f

/-- An operation on the state, without a pause. -/
def ofState (x : StateM σ α) : Fiber σ α := .act (fun s => (x.run s).2) fun s => .done (x.run s).1

/-- Lets others run. -/
def yield : Fiber σ Unit := .pause (.done ())

/-- Runs the fiber to its end. -/
def run : Fiber σ α → StateM σ α
  | .done a => fun s => (a, s)
  | .act next rest => fun s => (rest s).run (next s)
  | .pause rest => rest.run

/-- Runs the fiber to its end or its next pause: its result or what remains of it. -/
def runToPause : Fiber σ α → StateM σ (α ⊕ Fiber σ α)
  | .done a => fun s => (.inl a, s)
  | .act next rest => fun s => (rest s).runToPause (next s)
  | .pause rest => fun s => (.inr rest, s)

/-- Runs two fibers in turn, each up to its next pause, the first one first; when one has ended the
other runs to its end. -/
def race : Fiber σ α → Fiber σ β → StateM σ (α × β)
  | .done a, y => do return (a, ← y.run)
  | .act next rest, y => fun s => (rest s).race y (next s)
  | .pause x, y => do
    match ← y.runToPause with
    | .inl b => return (← x.run, b)
    | .inr y => x.race y

end Fiber

end Tenancy
