import Tenancy.Fiber
import Tenancy.Proofs.Operation

/-!
# Fibers that take turns

A fiber that shares its state with others takes turns: from the pause that it has come to it runs up
to its next pause, or to its end.

* `Fiber.turn`: one turn.
* `Fiber.upTo_bind_ok`, `Fiber.upTo_bind_pause`: how far two steps come in one turn, by where the
  first one ends.
-/

namespace Tenancy

namespace Fiber

variable {ε ε' σ α β : Type}

/-- Runs the fiber from the pause that it has come to, up to its next pause or its end. -/
def turn : Fiber σ α → StateM σ (α ⊕ Fiber σ α)
  | .pause rest => rest.runToPause
  | x => x.runToPause

theorem runToPause_bind (x : Fiber σ α) (f : α → Fiber σ β) (st : σ) :
    (x.bind f).runToPause st =
      match x.runToPause st with
      | (.inl a, t) => (f a).runToPause t
      | (.inr rest, t) => (.inr (rest.bind f), t) := by
  induction x generalizing st with
  | done a => rfl
  | act next rest ih => exact ih st (next st)
  | pause rest => rfl

theorem runToPause_bind_done {x : Fiber σ α} {st t : σ} {a : α}
    (h : x.runToPause st = (.inl a, t)) (f : α → Fiber σ β) :
    (x.bind f).runToPause st = (f a).runToPause t := by
  rw [runToPause_bind, h]

theorem runToPause_bind_pause {x rest : Fiber σ α} {st t : σ}
    (h : x.runToPause st = (.inr rest, t)) (f : α → Fiber σ β) :
    (x.bind f).runToPause st = (.inr (rest.bind f), t) := by
  rw [runToPause_bind, h]

/-- How far an operation that may fail comes in one turn. -/
def upTo (x : ExceptT ε (Fiber σ) α) (st : σ) : (Except ε α ⊕ Fiber σ (Except ε α)) × σ :=
  x.run.runToPause st

variable {x : ExceptT ε (Fiber σ) α} {f : α → ExceptT ε (Fiber σ) β} {st t : σ} {a : α}

theorem upTo_bind_ok (h : upTo x st = (.inl (.ok a), t)) : upTo (x >>= f) st = upTo (f a) t :=
  runToPause_bind_done h (ExceptT.bindCont f)

theorem upTo_bind_pause {rest : Fiber σ (Except ε α)} (h : upTo x st = (.inr rest, t)) :
    upTo (x >>= f) st = (.inr (rest.bind (ExceptT.bindCont f)), t) :=
  runToPause_bind_pause h (ExceptT.bindCont f)

theorem upTo_ofExcept (result : Except ε α) (st : σ) :
    upTo (liftM result : ExceptT ε (Fiber σ) α) st = (.inl result, st) := by
  cases result <;> rfl

/-- Two steps, the first of which is reached at a pause and comes to its end in this turn. -/
theorem turn_bind_ok {rest : Fiber σ (Except ε α)} (hPaused : x.run = .pause rest)
    (hTurn : rest.runToPause st = (.inl (.ok a), t)) : (x >>= f).run.turn st = upTo (f a) t := by
  have hRun : (x >>= f).run = .pause (rest.bind (ExceptT.bindCont f)) := by
    rw [ExceptT.run_bind, hPaused]
    rfl
  rw [hRun, turn]
  exact runToPause_bind_done hTurn (ExceptT.bindCont f)

/-- A fiber that comes to its end in one turn does the same alone. -/
theorem run_of_turn {y : Fiber σ α} (h : y.turn st = (.inl a, t)) : y.run st = (a, t) := by
  have hAlone : ∀ (y : Fiber σ α) (st : σ), y.runToPause st = (.inl a, t) → y.run st = (a, t) := by
    intro y
    induction y with
    | done b =>
      rintro st ⟨⟩
      rfl
    | act next rest ih => exact fun st h => ih st (next st) h
    | pause rest => rintro st ⟨⟩
  cases y with
  | pause rest => exact hAlone rest st h
  | done b => exact hAlone _ st h
  | act next rest => exact hAlone _ st h

end Fiber

end Tenancy
