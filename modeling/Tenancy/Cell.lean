/-!
# Cells

Stores, grant tables and record systems are written as operations on their own state.  A cell is the
place of such a state inside a larger one: it runs an operation on the part in the monad of the
whole.  What is built over cells works alike on its own and as one of many parts.
-/

namespace Tenancy

/-- A place that holds a state of type `σ`, as seen from the monad `m`. -/
structure Cell (m : Type → Type) (σ : Type) where
  access : {α : Type} → StateM σ α → m α

namespace Cell

/-- The whole state. -/
def whole {σ : Type} : Cell (StateM σ) σ := ⟨fun x => x⟩

/-- A part of the state in a cell, read by `get` and written by `set`. -/
def part {m : Type → Type} {σ τ : Type} (cell : Cell m σ) (get : σ → τ) (set : τ → σ → σ) :
    Cell m τ :=
  ⟨fun x => cell.access fun s =>
    let (a, t) := x.run (get s)
    pure (a, set t s)⟩

end Cell

/-- A part of a state of type `σ` that can be read and written without touching the rest. -/
structure Part (σ τ : Type) where
  read : σ → τ
  write : τ → σ → σ
  read_write : ∀ t s, read (write t s) = t
  write_read : ∀ s, write (read s) s = s
  write_write : ∀ t u s, write t (write u s) = write t s

/-- The place of a part in its state. -/
def Part.cell {σ τ : Type} (p : Part σ τ) : Cell (StateM σ) τ := Cell.whole.part p.read p.write

end Tenancy
