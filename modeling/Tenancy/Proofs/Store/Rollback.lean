import Tenancy.Proofs.Store.Error
import Tenancy.Proofs.Store.Provision
import Tenancy.Proofs.Store.Write

/-!
# Provisioning that succeeds and provisioning that is taken back

A call that creates a resource in a store that provisions either has all side effects performed, in
order, or comes to one that fails.  A `Rollback` is all that happens in the second case, from state
to state: nothing is performed after the failure, what was performed before is undone once, in the
same order, and at last the resource is deleted, whatever came of the undoing.

* `Store.performs_or_rollback`: one of the two happens.
* `Store.runOn_provision_of_performs`, `Store.runOn_provision_of_rollback`: how provisioning ends.
* `Store.run_provisioned`: provisioning follows a write that has created its resource, and no other.
-/

namespace Tenancy

variable {σ α β γ ν : Type}

/-! ## Runs of side effects -/

inductive Performs (call : Call) (r : Resource α) :
    List (SideEffect (StateM σ) α) → σ → σ → Prop
  | nil (s : σ) : Performs call r [] s s
  | cons {effect : SideEffect (StateM σ) α} {effects : List (SideEffect (StateM σ) α)} {s t u : σ}
      (hFirst : runOn (effect.perform call r) s = (.ok (), t))
      (hRest : Performs call r effects t u) : Performs call r (effect :: effects) s u

inductive Undoes (call : Call) (r : Resource α) :
    List (SideEffect (StateM σ) α) → σ → (undone : List (Option StoreError)) → σ → Prop
  | nil (s : σ) : Undoes call r [] s [] s
  | cons {effect : SideEffect (StateM σ) α} {effects : List (SideEffect (StateM σ) α)} {s t u : σ}
      {result : Except StoreError Unit} {undone : List (Option StoreError)}
      (hFirst : runOn (effect.undo call r) s = (result, t))
      (hRest : Undoes call r effects t undone u) :
      Undoes call r (effect :: effects) s (problem? result :: undone) u

/-- What happens in the state `start` to the created resource `r` if one of its side effects fails.
-/
structure Rollback (inner : Store (StateM σ) α) (effects : List (SideEffect (StateM σ) α))
    (call : Call) (r : Resource α) (start : σ) where
  before : List (SideEffect (StateM σ) α)
  /-- The first side effect that fails. -/
  failing : SideEffect (StateM σ) α
  after : List (SideEffect (StateM σ) α)
  effects_eq : effects = before ++ failing :: after
  /-- The state in which the failing side effect is performed. -/
  ready : σ
  performs : Performs call r before start ready
  trigger : StoreError
  broken : σ
  fails : runOn (failing.perform call r) ready = (.error trigger, broken)
  undone : List (Option StoreError)
  cleared : σ
  undoes : Undoes call r before broken undone cleared
  deleted : Except StoreError (Outcome α)
  final : σ
  deletes : runOn (inner.delete call r.name) cleared = (deleted, final)
  error : StoreError
  combines : StoreError.combine (some trigger :: undone ++ [problem? deleted]) = some error

namespace Performs

variable {call : Call} {r : Resource α} {effects : List (SideEffect (StateM σ) α)} {s t u : σ}

/-- Side effects that are not all performed have a first one that fails. -/
theorem total (call : Call) (r : Resource α) (effects : List (SideEffect (StateM σ) α)) (s : σ) :
    (∃ t, Performs call r effects s t) ∨
      ∃ before failing after ready trigger broken, effects = before ++ failing :: after ∧
        Performs call r before s ready ∧
        runOn (failing.perform call r) ready = (.error trigger, broken) := by
  induction effects generalizing s with
  | nil => exact .inl ⟨s, .nil s⟩
  | cons effect effects ih =>
    rcases hFirst : runOn (effect.perform call r) s with ⟨trigger | _, t⟩
    · exact .inr ⟨[], effect, effects, s, trigger, t, rfl, .nil s, hFirst⟩
    · rcases ih t with ⟨u, hRest⟩ | h
      · exact .inl ⟨u, .cons hFirst hRest⟩
      · obtain ⟨before, failing, after, ready, trigger, broken, rfl, hRest, hFails⟩ := h
        exact .inr ⟨effect :: before, failing, after, ready, trigger, broken, rfl,
          .cons hFirst hRest, hFails⟩

theorem append_inv {others : List (SideEffect (StateM σ) α)}
    (h : Performs call r (effects ++ others) s u) :
    ∃ t, Performs call r effects s t ∧ Performs call r others t u := by
  induction effects generalizing s with
  | nil => exact ⟨s, .nil s, h⟩
  | cons effect effects ih =>
    cases h with
    | cons hFirst hRest =>
      obtain ⟨t, hEffects, hOthers⟩ := ih hRest
      exact ⟨t, .cons hFirst hEffects, hOthers⟩

end Performs

namespace Undoes

variable {call : Call} {r : Resource α} {effects : List (SideEffect (StateM σ) α)} {s t u : σ}
  {undone : List (Option StoreError)}

theorem append_inv {others : List (SideEffect (StateM σ) α)}
    (h : Undoes call r (effects ++ others) s undone u) :
    ∃ first rest t, undone = first ++ rest ∧ first.length = effects.length ∧
      Undoes call r effects s first t ∧ Undoes call r others t rest u := by
  induction effects generalizing s undone with
  | nil => exact ⟨[], undone, s, rfl, rfl, .nil s, h⟩
  | cons effect effects ih =>
    cases h with
    | cons hFirst hRest =>
      obtain ⟨first, rest, t, rfl, hLength, hEffects, hOthers⟩ := ih hRest
      exact ⟨_ :: first, rest, t, rfl, by simp [hLength], .cons hFirst hEffects, hOthers⟩

end Undoes

namespace Store

variable (inner : Store (StateM σ) α) (call : Call) (r : Resource α)

theorem exists_undoes (effects : List (SideEffect (StateM σ) α)) (s : σ) :
    Undoes call r effects s ((undoAll call r effects).run s).1
      ((undoAll call r effects).run s).2 := by
  induction effects generalizing s with
  | nil => exact .nil s
  | cons effect effects ih =>
    rw [run_undoAll_cons]
    exact .cons rfl (ih _)

variable {inner call r} {effects : List (SideEffect (StateM σ) α)} {s t u : σ}

theorem run_undoAll {undone : List (Option StoreError)} (h : Undoes call r effects s undone t) :
    (undoAll call r effects).run s = (undone, t) := by
  induction h with
  | nil s => rfl
  | cons hFirst _ ih => simp only [run_undoAll_cons, hFirst, ih]

theorem runOn_provision_of_performs (h : Performs call r effects s t)
    (performed : List (SideEffect (StateM σ) α)) :
    runOn (provision inner call r performed effects) s = (.ok (), t) := by
  induction h generalizing performed with
  | nil s => rfl
  | cons hFirst _ ih =>
    simp only [runOn_provision_cons, hFirst]
    exact ih _

theorem runOn_provision_of_fails (inner : Store (StateM σ) α)
    {before : List (SideEffect (StateM σ) α)} {failing : SideEffect (StateM σ) α}
    {trigger : StoreError} (h : Performs call r before s t)
    (hFails : runOn (failing.perform call r) t = (.error trigger, u))
    (performed after : List (SideEffect (StateM σ) α)) :
    runOn (provision inner call r performed (before ++ failing :: after)) s =
      (.error ((compensate inner call r (performed ++ before) trigger).run u).1,
        ((compensate inner call r (performed ++ before) trigger).run u).2) := by
  induction h generalizing performed with
  | nil s => simp only [List.nil_append, List.append_nil, runOn_provision_cons, hFails]
  | cons hFirst _ ih =>
    simp only [List.cons_append, runOn_provision_cons, hFirst, ih hFails, List.append_assoc,
      List.nil_append]

theorem runOn_provision_of_rollback (c : Rollback inner effects call r s) :
    runOn (provision inner call r [] effects) s = (.error c.error, c.final) := by
  have hCompensate : (compensate inner call r c.before c.trigger).run c.broken =
      (c.error, c.final) := by
    simp only [run_compensate, run_undoAll c.undoes, c.deletes, c.combines, Option.getD_some]
  have hRun := runOn_provision_of_fails inner c.performs c.fails [] c.after
  rwa [← c.effects_eq, List.nil_append, hCompensate] at hRun

theorem performs_or_rollback (inner : Store (StateM σ) α) (call : Call) (r : Resource α)
    (effects : List (SideEffect (StateM σ) α)) (s : σ) :
    (∃ t, Performs call r effects s t) ∨ Nonempty (Rollback inner effects call r s) := by
  refine (Performs.total call r effects s).imp_right ?_
  rintro ⟨before, failing, after, ready, trigger, broken, hEq, hPerforms, hFails⟩
  obtain ⟨e, hCombines⟩ := StoreError.exists_combine trigger
    (((undoAll call r before).run broken).1 ++
      [problem? (runOn (inner.delete call r.name) ((undoAll call r before).run broken).2).1])
  exact ⟨⟨before, failing, after, hEq, ready, hPerforms, trigger, broken, hFails, _, _,
    exists_undoes call r before broken, _, _, rfl, e, hCombines⟩⟩

theorem run_provisioned (w : Write σ α) (inner : Store (StateM σ) α)
    (effects : List (SideEffect (StateM σ) α)) (call : Call) (s : σ) :
    runOn (w.run (inner.provisioned effects) call) s =
      match runOn (w.run inner call) s with
      | (.ok (r, true), t) =>
        ((runOn (provision inner call r [] effects) t).1.map fun _ => (r, true),
          (runOn (provision inner call r [] effects) t).2)
      | (.ok (r, false), t) => (.ok (r, false), t)
      | (.error e, t) => (.error e, t) := by
  cases w with
  | create resource =>
    simp only [Write.run, provisioned, runOn_map, runOn_bind]
    rcases runOn (inner.create call resource) s with ⟨_ | r, t⟩
    · rfl
    · rcases hRun : runOn (provision inner call r [] effects) t with ⟨_ | _, u⟩ <;>
        simp [hRun]
  | update name mutate allowCreate =>
    simp only [Write.run, provisioned, runOn_bind]
    rcases runOn (inner.update call name mutate allowCreate) s with ⟨_ | ⟨r, _ | _⟩, t⟩
    · rfl
    · rfl
    · rcases hRun : runOn (provision inner call r [] effects) t with ⟨_ | _, u⟩ <;>
        simp [hRun]

end Store

end Tenancy
