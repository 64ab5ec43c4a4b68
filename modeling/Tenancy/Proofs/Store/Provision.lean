import Tenancy.Proofs.Operation
import Tenancy.Store.Provisioned

/-!
# Provisioning step by step

What the parts of a provisioning store do from a given state: one side effect after the other is
performed, and the first failure is followed by one compensation.
-/

namespace Tenancy

variable {σ α β : Type}

namespace Store

theorem run_failure (x : ExceptT StoreError (StateM σ) β) (s : σ) :
    (failure x).run s = (problem? (runOn x s).1, (runOn x s).2) := by
  rcases hRun : runOn x s with ⟨_ | _, t⟩ <;>
    · simp only [failure, StateT.run_bind, run_run_eq_runOn, hRun]
      rfl

variable (inner : Store (StateM σ) α) (call : Call) (created : Resource α)

@[simp]
theorem run_undoAll_nil (s : σ) :
    (undoAll (m := StateM σ) call created []).run s = ([], s) := rfl

theorem run_undoAll_cons (effect : SideEffect (StateM σ) α)
    (effects : List (SideEffect (StateM σ) α)) (s : σ) :
    (undoAll call created (effect :: effects)).run s =
      let (undone, t) := runOn (effect.undo call created) s
      let (rest, u) := (undoAll call created effects).run t
      (problem? undone :: rest, u) := by
  simp only [undoAll, StateT.run_bind, run_failure]
  rfl

theorem run_compensate (performed : List (SideEffect (StateM σ) α)) (trigger : StoreError) (s : σ) :
    (compensate inner call created performed trigger).run s =
      let (undone, t) := (undoAll call created performed).run s
      let (deleted, u) := runOn (inner.delete call created.name) t
      ((StoreError.combine (some trigger :: undone ++ [problem? deleted])).getD
        (.internal ("provisioning of \"" ++ created.name ++ "\" failed")), u) := by
  simp only [compensate, StateT.run_bind, run_failure]
  rfl

@[simp]
theorem runOn_provision_nil (performed : List (SideEffect (StateM σ) α)) (s : σ) :
    runOn (provision inner call created performed []) s = (.ok (), s) := rfl

theorem runOn_provision_cons (performed : List (SideEffect (StateM σ) α))
    (effect : SideEffect (StateM σ) α) (effects : List (SideEffect (StateM σ) α)) (s : σ) :
    runOn (provision inner call created performed (effect :: effects)) s =
      match runOn (effect.perform call created) s with
      | (.ok _, t) => runOn (provision inner call created (performed ++ [effect]) effects) t
      | (.error trigger, t) =>
        (.error ((compensate inner call created performed trigger).run t).1,
          ((compensate inner call created performed trigger).run t).2) := by
  simp only [provision, runOn_bind, runOn_lift, run_run_eq_runOn]
  rcases runOn (effect.perform call created) s with ⟨_ | _, t⟩
  · simp only [runOn_bind, runOn_lift, runOn_throw]
  · rfl

end Store

end Tenancy
