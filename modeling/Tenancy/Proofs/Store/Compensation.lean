import Tenancy.Proofs.Store.Rollback

/-!
# Compensation

What a rollback leaves behind.  Two things are read off the state: a journal of all that was asked
of the store and the side effects, and a part for the store and for each side effect.

* `Store.compensation_exact`: how every call that may create ends, with its error, its journal and
  its state.
* `Rollback.view_final`: if everybody keeps to its own part, a part is after a rollback as it was
  before the call, unless putting it back has failed.
-/

namespace Tenancy

variable {σ α β γ ν : Type} {inner : Store (StateM σ) α} {effects : List (SideEffect (StateM σ) α)}
  {call : Call} {w : Write σ α} {r : Resource α} {s t u : σ}

/-! ## The journal -/

/-- What a call asks of the inner store and of the side effects. -/
inductive Action (α : Type) where
  | write
  | perform (kind : String) (resource : Resource α)
  | undo (kind : String) (resource : Resource α)
  | delete (name : String)

/-- The journal of a state gets the action whenever the operation runs. -/
def Logs (journal : σ → List (Action α)) (action : Action α)
    (x : ExceptT StoreError (StateM σ) β) : Prop :=
  ∀ s, journal (runOn x s).2 = journal s ++ [action]

/-- All that a write asks of the inner store and of the side effects is in the journal. -/
structure Journaled (inner : Store (StateM σ) α) (effects : List (SideEffect (StateM σ) α))
    (call : Call) (w : Write σ α) (journal : σ → List (Action α)) : Prop where
  write : Logs journal .write (w.run inner call)
  delete : ∀ name, Logs journal (.delete name) (inner.delete call name)
  perform : ∀ effect ∈ effects, ∀ r,
    Logs journal (.perform effect.kind r) (effect.perform call r)
  undo : ∀ effect ∈ effects, ∀ r, Logs journal (.undo effect.kind r) (effect.undo call r)

def performing (r : Resource α) (effects : List (SideEffect (StateM σ) α)) : List (Action α) :=
  effects.map fun effect => .perform effect.kind r

def undoing (r : Resource α) (effects : List (SideEffect (StateM σ) α)) : List (Action α) :=
  effects.map fun effect => .undo effect.kind r

def Rollback.actions (c : Rollback inner effects call r s) : List (Action α) :=
  performing r (c.before ++ [c.failing]) ++ undoing r c.before ++ [.delete r.name]

variable {journal : σ → List (Action α)}

theorem Performs.journal_eq (h : Performs call r effects s t)
    (hLogs : ∀ effect ∈ effects, Logs journal (.perform effect.kind r) (effect.perform call r)) :
    journal t = journal s ++ performing r effects := by
  induction h with
  | nil s => simp [performing]
  | @cons effect effects s t u hFirst _ ih =>
    have hEffect := hLogs effect (List.mem_cons_self ..) s
    rw [hFirst] at hEffect
    rw [ih fun e hMem => hLogs e (List.mem_cons_of_mem _ hMem), hEffect]
    simp [performing]

theorem Undoes.journal_eq {undone : List (Option StoreError)}
    (h : Undoes call r effects s undone t)
    (hLogs : ∀ effect ∈ effects, Logs journal (.undo effect.kind r) (effect.undo call r)) :
    journal t = journal s ++ undoing r effects := by
  induction h with
  | nil s => simp [undoing]
  | @cons effect effects s t u _ _ hFirst _ ih =>
    have hEffect := hLogs effect (List.mem_cons_self ..) s
    rw [hFirst] at hEffect
    rw [ih fun e hMem => hLogs e (List.mem_cons_of_mem _ hMem), hEffect]
    simp [undoing]

theorem Rollback.getElem?_before (c : Rollback inner effects call r s) {i : Nat}
    {effect : SideEffect (StateM σ) α} (hAt : c.before[i]? = some effect) :
    effects[i]? = some effect :=
  (congrArg (·[i]?) c.effects_eq).trans
    (List.getElem?_append_left (List.getElem?_eq_some_iff.1 hAt).1 ▸ hAt)

theorem Rollback.getElem?_failing (c : Rollback inner effects call r s) :
    effects[c.before.length]? = some c.failing :=
  (congrArg (·[c.before.length]?) c.effects_eq).trans (by simp)

theorem Rollback.journal_eq (c : Rollback inner effects call r s)
    (hJournal : Journaled inner effects call w journal) :
    journal c.final = journal s ++ c.actions := by
  have hBefore : ∀ effect ∈ c.before, effect ∈ effects := fun effect hMem => by
    obtain ⟨i, hAt⟩ := List.mem_iff_getElem?.1 hMem
    exact List.mem_of_getElem? (c.getElem?_before hAt)
  have hPerformed := c.performs.journal_eq fun e hMem => hJournal.perform e (hBefore e hMem) r
  have hFailed := hJournal.perform c.failing (List.mem_of_getElem? c.getElem?_failing) r c.ready
  have hUndone := c.undoes.journal_eq fun e hMem => hJournal.undo e (hBefore e hMem) r
  have hDeleted := hJournal.delete r.name c.cleared
  rw [c.fails] at hFailed
  rw [c.deletes] at hDeleted
  rw [hDeleted, hUndone, hFailed, hPerformed]
  simp [actions, performing]

/-! ## The parts of the state -/

inductive Owner where
  | store
  | effect (index : Nat)
  deriving DecidableEq

/-- The operation leaves a part of the state alone. -/
def Spares (view : σ → ν) (x : ExceptT StoreError (StateM σ) β) : Prop :=
  ∀ s, view (runOn x s).2 = view s

/-- Where `x` has ended with `b` and its part of the state is still as `x` left it, the part is as
before `x` after `y`, if `y` does not fail. -/
def Reverses (view : σ → ν) (x : ExceptT StoreError (StateM σ) β) (b : β)
    (y : ExceptT StoreError (StateM σ) γ) : Prop :=
  ∀ s t, (runOn x s).1 = .ok b → view t = view (runOn x s).2 → problem? (runOn y t).1 = none →
    view (runOn y t).2 = view s

/-- The inner store and the side effects touch each its own part of the state only, and take back
there what they have done. -/
structure Separated (inner : Store (StateM σ) α) (effects : List (SideEffect (StateM σ) α))
    (call : Call) (w : Write σ α) {π : Owner → Type} (view : ∀ owner, σ → π owner) : Prop where
  write : ∀ i, Spares (view (.effect i)) (w.run inner call)
  delete : ∀ i name, Spares (view (.effect i)) (inner.delete call name)
  perform : ∀ i effect, effects[i]? = some effect → ∀ owner, owner ≠ .effect i → ∀ r,
    Spares (view owner) (effect.perform call r)
  undo : ∀ i effect, effects[i]? = some effect → ∀ owner, owner ≠ .effect i → ∀ r,
    Spares (view owner) (effect.undo call r)
  write_delete : ∀ r,
    Reverses (view .store) (w.run inner call) (r, true) (inner.delete call r.name)
  perform_undo : ∀ i effect, effects[i]? = some effect → ∀ r,
    Reverses (view (.effect i)) (effect.perform call r) () (effect.undo call r)

/-- The part of an owner has been put back: nothing that should do so has failed.  The side effect
that failed is not undone, so it must have left its part alone. -/
def Rollback.PutsBack (c : Rollback inner effects call r s) {π : Owner → Type}
    (view : ∀ owner, σ → π owner) : Owner → Prop
  | .store => problem? c.deleted = none
  | .effect i =>
    if i = c.before.length then view (.effect i) c.broken = view (.effect i) c.ready
    else ∀ e, c.undone[i]? ≠ some (some e)

theorem Performs.view_eq {view : σ → ν} (h : Performs call r effects s t)
    (hSpares : ∀ effect ∈ effects, Spares view (effect.perform call r)) : view t = view s := by
  induction h with
  | nil s => rfl
  | @cons effect effects s t u hFirst _ ih =>
    have hEffect := hSpares effect (List.mem_cons_self ..) s
    rw [hFirst] at hEffect
    rw [ih fun e hMem => hSpares e (List.mem_cons_of_mem _ hMem), hEffect]

theorem Undoes.view_eq {view : σ → ν} {undone : List (Option StoreError)}
    (h : Undoes call r effects s undone t)
    (hSpares : ∀ effect ∈ effects, Spares view (effect.undo call r)) : view t = view s := by
  induction h with
  | nil s => rfl
  | @cons effect effects s t u _ _ hFirst _ ih =>
    have hEffect := hSpares effect (List.mem_cons_self ..) s
    rw [hFirst] at hEffect
    rw [ih fun e hMem => hSpares e (List.mem_cons_of_mem _ hMem), hEffect]

namespace Rollback

variable {π : Owner → Type} {view : ∀ owner, σ → π owner} (c : Rollback inner effects call r s)
  (hSeparated : Separated inner effects call w view)

include hSeparated

/-- Side effects of which none is at the index of the owner spare its part. -/
theorem spares (owner : Owner) {others : List (SideEffect (StateM σ) α)}
    (hOther : ∀ effect ∈ others, ∃ j, c.before[j]? = some effect ∧ owner ≠ .effect j) :
    (∀ effect ∈ others, Spares (view owner) (effect.perform call r)) ∧
      ∀ effect ∈ others, Spares (view owner) (effect.undo call r) := by
  constructor <;> intro effect hMem <;> obtain ⟨j, hAt, hNe⟩ := hOther effect hMem
  · exact hSeparated.perform j effect (c.getElem?_before hAt) owner hNe r
  · exact hSeparated.undo j effect (c.getElem?_before hAt) owner hNe r

theorem view_of_other (owner : Owner) (hOther : ∀ j < c.before.length, owner ≠ .effect j) :
    view owner c.ready = view owner s ∧ view owner c.cleared = view owner c.broken := by
  have hSpares := c.spares hSeparated owner fun effect (hMem : effect ∈ c.before) => by
    obtain ⟨j, hAt⟩ := List.mem_iff_getElem?.1 hMem
    exact ⟨j, hAt, hOther j (List.getElem?_eq_some_iff.1 hAt).1⟩
  exact ⟨c.performs.view_eq hSpares.1, c.undoes.view_eq hSpares.2⟩

theorem view_broken (owner : Owner) (hOther : owner ≠ .effect c.before.length) :
    view owner c.broken = view owner c.ready := by
  have hSpares := hSeparated.perform _ _ c.getElem?_failing owner hOther r c.ready
  rwa [c.fails] at hSpares

/-- The part of a side effect that was performed and undone without failure: those before it and
after it spare the part, so that its undoing meets what its performance has left. -/
theorem view_of_undone {i : Nat} (hLt : i < c.before.length)
    (hUndone : ∀ e, c.undone[i]? ≠ some (some e)) :
    view (.effect i) c.cleared = view (.effect i) s := by
  have hSplit : c.before = c.before.take i ++ c.before[i] :: c.before.drop (i + 1) := by
    rw [List.getElem_cons_drop, List.take_append_drop]
  have hEarlier := c.spares hSeparated (.effect i) fun effect
      (hMem : effect ∈ c.before.take i) => by
    obtain ⟨j, hj, rfl⟩ := List.mem_take_iff_getElem.1 hMem
    exact ⟨j, List.getElem?_eq_getElem (by omega), by simp; omega⟩
  have hLater := c.spares hSeparated (.effect i) fun effect
      (hMem : effect ∈ c.before.drop (i + 1)) => by
    obtain ⟨j, hj, rfl⟩ := List.mem_drop_iff_getElem.1 hMem
    exact ⟨i + 1 + j, List.getElem?_eq_getElem (by omega), by simp; omega⟩
  have hPerforms := c.performs
  rw [hSplit] at hPerforms
  obtain ⟨a, hPre, hPost⟩ := hPerforms.append_inv
  cases hPost with
  | @cons _ _ _ b _ hPerform hPost =>
    have hUndoes := c.undoes
    rw [hSplit] at hUndoes
    obtain ⟨first, rest, d, hEq, hLength, hUndoPre, hUndoPost⟩ := hUndoes.append_inv
    cases hUndoPost with
    | @cons _ _ _ f _ result undone hUndo hUndoPost =>
      have hNone : problem? result = none := by
        cases hResult : problem? result with
        | none => rfl
        | some e =>
          refine absurd ?_ (hUndone e)
          rw [hEq, List.getElem?_append_right (by simp at hLength; omega), hLength, hResult]
          simp [Nat.min_eq_left (Nat.le_of_lt hLt)]
      have hBroken := c.view_broken hSeparated (.effect i) (by simp; omega)
      have hAt := c.getElem?_before (List.getElem?_eq_getElem hLt)
      have hReverses := hSeparated.perform_undo i _ hAt r a d
      rw [hPerform, hUndo] at hReverses
      calc view (.effect i) c.cleared
          = view (.effect i) f := hUndoPost.view_eq hLater.2
        _ = view (.effect i) a := by
            refine hReverses rfl ?_ hNone
            rw [hUndoPre.view_eq hEarlier.2, hBroken, hPost.view_eq hLater.1]
        _ = view (.effect i) s := hPre.view_eq hEarlier.1

/-- After a rollback the part of an owner is as it was before the call that stored the resource. -/
theorem view_final {before : σ} (hStored : runOn (w.run inner call) before = (.ok (r, true), s))
    {owner : Owner} (hBack : c.PutsBack view owner) : view owner c.final = view owner before := by
  have hWrite := fun i => hSeparated.write i before
  have hDelete := fun i => hSeparated.delete i r.name c.cleared
  rw [hStored] at hWrite
  rw [c.deletes] at hDelete
  cases owner with
  | store =>
    have hPrimary := c.view_of_other hSeparated .store fun _ _ => Owner.noConfusion
    have hBroken := c.view_broken hSeparated .store Owner.noConfusion
    have hReverses := hSeparated.write_delete r before c.cleared
    rw [hStored, c.deletes] at hReverses
    exact hReverses rfl (by rw [hPrimary.2, hBroken, hPrimary.1]) hBack
  | effect i =>
    rw [hDelete i, ← hWrite i]
    rcases Nat.lt_trichotomy i c.before.length with hLt | hEq | hGt
    · rw [PutsBack, if_neg (Nat.ne_of_lt hLt)] at hBack
      exact c.view_of_undone hSeparated hLt hBack
    · rw [PutsBack, if_pos hEq] at hBack
      have hOther := c.view_of_other hSeparated (.effect i) fun j hj => by simp; omega
      rw [hOther.2, hBack, hOther.1]
    · have hOther := c.view_of_other hSeparated (.effect i) fun j hj => by simp; omega
      rw [hOther.2, c.view_broken hSeparated (.effect i) (by simp; omega), hOther.1]

end Rollback

/-! ## Every call -/

namespace Store

/-- How a call ends that may create a resource in a store with side effects.

If the inner write fails, or changes a resource that there was, no side effect is called.  If all
side effects are performed without failure, nothing is undone.  If there is a first one that fails,
the call ends with the final state of the rollback and with an error that is made of the error that
began it and all failures of the rollback, in order; it has the status of the first, and is the
first if nothing else has failed. -/
theorem compensation_exact (inner : Store (StateM σ) α)
    (effects : List (SideEffect (StateM σ) α)) (call : Call) (w : Write σ α) (before : σ) :
    (∀ result s, runOn (w.run inner call) before = (result, s) → (∀ r, result ≠ .ok (r, true)) →
      runOn (w.run (inner.provisioned effects) call) before = (result, s) ∧
      ∀ journal, Journaled inner effects call w journal →
        journal s = journal before ++ [.write]) ∧
    ∀ r s, runOn (w.run inner call) before = (.ok (r, true), s) →
      ((∃ t, Performs call r effects s t) ∨ Nonempty (Rollback inner effects call r s)) ∧
      (∀ t, Performs call r effects s t →
        runOn (w.run (inner.provisioned effects) call) before = (.ok (r, true), t) ∧
        ∀ journal, Journaled inner effects call w journal →
          journal t = journal before ++ .write :: performing r effects) ∧
      ∀ c : Rollback inner effects call r s,
        runOn (w.run (inner.provisioned effects) call) before = (.error c.error, c.final) ∧
        c.error.status = c.trigger.status ∧
        ((∀ e ∈ c.undone, e = none) → problem? c.deleted = none → c.error = c.trigger) ∧
        (∀ journal, Journaled inner effects call w journal →
          journal c.final = journal before ++ .write :: c.actions) ∧
        ∀ (π : Owner → Type) (view : ∀ owner, σ → π owner), Separated inner effects call w view →
          ∀ owner, c.PutsBack view owner → view owner c.final = view owner before := by
  have hEnd := run_provisioned w inner effects call before
  have hWritten : ∀ {result s}, runOn (w.run inner call) before = (result, s) →
      ∀ journal, Journaled inner effects call w journal →
        journal s = journal before ++ [.write] := by
    intro result s hRun journal hJournal
    have hWrite := hJournal.write before
    rwa [hRun] at hWrite
  refine ⟨?_, ?_⟩
  · intro result s hRun hOther
    refine ⟨?_, hWritten hRun⟩
    rw [hRun] at hEnd
    rcases result with e | ⟨r, _ | _⟩
    · exact hEnd
    · exact hEnd
    · exact absurd rfl (hOther r)
  · intro r s hRun
    rw [hRun] at hEnd
    refine ⟨performs_or_rollback inner call r effects s, ?_, ?_⟩
    · intro t hPerforms
      refine ⟨?_, fun journal hJournal => ?_⟩
      · simp only [hEnd, runOn_provision_of_performs hPerforms, map_ok]
      · rw [hPerforms.journal_eq fun e hMem => hJournal.perform e hMem r,
          hWritten hRun journal hJournal, List.append_assoc]
        rfl
    · intro c
      refine ⟨?_, StoreError.status_combine c.combines, ?_, ?_, ?_⟩
      · simp only [hEnd, runOn_provision_of_rollback c, map_error]
      · intro hUndone hDeleted
        have hCombines := c.combines
        rw [List.cons_append, StoreError.combine_of_forall_none] at hCombines
        · exact (Option.some.inj hCombines).symm
        · simpa [or_imp, forall_and, hDeleted] using hUndone
      · intro journal hJournal
        rw [c.journal_eq hJournal, hWritten hRun journal hJournal, List.append_assoc]
        rfl
      · intro π view hSeparated owner hBack
        exact c.view_final hSeparated hRun hBack

end Store

/-! ## A small store -/

/-- A journal, and for each owner a level that its actions raise and lower. -/
structure Levels where
  journal : List (Action Unit) := []
  level : Owner → Int := fun _ => 0

namespace Levels

def act (action : Action Unit) (owner : Owner) (change : Int) :
    ExceptT StoreError (StateM Levels) Unit :=
  modify fun s => ⟨s.journal ++ [action],
    fun other => if other = owner then s.level other + change else s.level other⟩

def store : Store (StateM Levels) Unit :=
  { Store.unsupported .organization .none with
    create := fun _ r => do
      act .write .store 1
      return r
    delete := fun _ name => do
      act (.delete name) .store (-1)
      return (.named name (), true) }

/-- The side effect of an index; if it fails it changes nothing. -/
def effect (index : Nat) (fails : Bool) : SideEffect (StateM Levels) Unit where
  kind := toString index
  perform _ r := do
    act (.perform (toString index) r) (.effect index) (if fails then 0 else 1)
    if fails then throw (.internal "no answer")
  undo _ r := act (.undo (toString index) r) (.effect index) (-1)

/-- Two side effects, of which the second fails. -/
def both : List (SideEffect (StateM Levels) Unit) := [effect 0 false, effect 1 true]

variable {call : Call} {r : Resource Unit}

theorem journaled : Journaled store both call (.create r) Levels.journal where
  write _ := rfl
  delete _ _ := rfl
  perform e hMem _ _ := by
    rcases List.mem_pair.1 hMem with rfl | rfl <;> rfl
  undo e hMem _ _ := by
    rcases List.mem_pair.1 hMem with rfl | rfl <;> rfl

theorem eq_effect_of_getElem? {i : Nat} {e : SideEffect (StateM Levels) Unit}
    (hAt : both[i]? = some e) : ∃ fails, e = effect i fails := by
  rcases i with _ | _ | i
  · exact ⟨false, (Option.some.inj hAt).symm⟩
  · exact ⟨true, (Option.some.inj hAt).symm⟩
  · cases hAt

theorem separated :
    Separated store both call (.create r) fun owner (s : Levels) => s.level owner where
  write i s := rfl
  delete i name s := rfl
  perform i e hAt owner hNe r s := by
    obtain ⟨fails, rfl⟩ := eq_effect_of_getElem? hAt
    cases fails <;> exact if_neg hNe
  undo i e hAt owner hNe r s := by
    obtain ⟨fails, rfl⟩ := eq_effect_of_getElem? hAt
    exact if_neg hNe
  write_delete r s t _ hSame _ := by
    have hUp : t.level .store = s.level .store + 1 := hSame
    change t.level .store + -1 = s.level .store
    omega
  perform_undo i e hAt r s t hOk hSame _ := by
    obtain ⟨fails, rfl⟩ := eq_effect_of_getElem? hAt
    cases fails with
    | true => cases hOk
    | false =>
      have hUp : t.level (.effect i) = s.level (.effect i) + 1 := hSame.trans (if_pos rfl)
      have hDown : (runOn ((effect i false).undo call r) t).2.level (.effect i) =
          t.level (.effect i) + -1 := if_pos rfl
      refine hDown.trans (?_ : t.level (.effect i) + -1 = s.level (.effect i))
      omega

end Levels

/-- The second side effect fails: the first is undone and the resource deleted, and all levels are
as before. -/
theorem Store.compensation_exact_levels :
    let call : Call := ⟨⟨"alice", []⟩, ⟨0, 0⟩, "1", "abcde"⟩
    let r : Resource Unit := .named "acme" ()
    let result := runOn ((Write.create r).run (Levels.store.provisioned Levels.both) call) {}
    result.1 = .error (.internal "no answer") ∧
    result.2.journal = [.write, .perform "0" r, .perform "1" r, .undo "0" r, .delete "acme"] ∧
    ∀ owner, result.2.level owner = 0 := by
  intro call r result
  obtain ⟨s, hWritten⟩ :
      ∃ s, runOn ((Write.create r).run Levels.store call) {} = (.ok (r, true), s) := ⟨_, rfl⟩
  let c : Rollback Levels.store Levels.both call r s := {
    before := [Levels.effect 0 false], failing := Levels.effect 1 true, after := []
    effects_eq := rfl, ready := _, performs := .cons rfl (.nil _)
    trigger := .internal "no answer", broken := _, fails := rfl
    undone := [none], cleared := _, undoes := .cons rfl (.nil _)
    deleted := _, final := _, deletes := rfl, error := .internal "no answer", combines := rfl }
  obtain ⟨hRun, -, -, hJournal, hLevel⟩ :=
    ((compensation_exact Levels.store Levels.both call (.create r) {}).2 r s hWritten).2.2 c
  have hBack : ∀ owner, c.PutsBack (fun owner s => s.level owner) owner := fun owner => by
    cases owner with
    | store => rfl
    | effect i =>
      rw [Rollback.PutsBack]
      split
      · rename_i hEq
        subst hEq
        exact Int.add_zero _
      · cases i <;> simp [c]
  refine ⟨congrArg Prod.fst hRun, ?_, fun owner => ?_⟩
  · exact (congrArg (·.2.journal) hRun).trans (hJournal _ Levels.journaled)
  · exact (congrArg (·.2.level owner) hRun).trans
      (hLevel (fun _ => Int) (fun owner s => s.level owner) Levels.separated owner (hBack owner))

end Tenancy
