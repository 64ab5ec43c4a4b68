import Mathlib.Data.List.Induction
import Tenancy.Proofs.Store.ChangeLog
import Tenancy.Proofs.Store.Scan
import Tenancy.Proofs.Store.UpdateTurns
import Tenancy.Proofs.Store.Version

/-!
# Updates at the same time

Updates of one existing name over one container may take their turns in any order, and other writes
may come between.  Nothing that happens in between can make an update fail, and the last to write
has the last word.

* `Contest`: updates of one name over one container, in any order of their turns.
* `Contest.TurnEffect`: all that a turn of an update can do.
* `Contest.Orderly`: how far each update has come, and what has been returned; `Contest.orderly`
  says that it holds between any two turns.
* `concurrent_updates_last_write_wins`: what follows.
-/

namespace Tenancy

open BlobStore (metadataOf)

variable {τ α : Type}

/-! ## Updates over one container -/

/-- What happens next: one of the updates takes a turn, or something else happens to the container
or to a feed of its changes. -/
inductive RaceMove where
  | turn (i : Nat)
  | other (step : ContainerStep)

namespace RaceMove

def isTurnOf (i : Nat) : RaceMove → Bool
  | .turn j => i = j
  | .other _ => false

/-- Nothing but the updates removes the entry of the name or replaces its bytes. -/
def Spares (name : String) : RaceMove → Prop
  | .other (.write (.patch written _)) | .other (.write (.delete written)) => written ≠ name
  | _ => True

end RaceMove

def turnsOf (i : Nat) (moves : List RaceMove) : Nat := moves.countP (·.isTurnOf i)

structure Race (τ α : Type) where
  container : MemoryContainer
  /-- The state of the mutations. -/
  others : τ
  /-- What remains of each update; nothing if it has ended. -/
  running : List (Option (Remaining τ α))
  /-- What the updates have returned, each with its number, in the order in which they ended. -/
  returned : List (Nat × Except StoreError (Outcome α))

namespace Race

def turn (i : Nat) (r : Race τ α) : Race τ α :=
  match r.running[i]? with
  | some (some x) =>
    match x.turn.run (r.container, r.others) with
    | (.inr rest, c, t) => ⟨c, t, r.running.set i (some rest), r.returned⟩
    | (.inl outcome, c, t) => ⟨c, t, r.running.set i none, r.returned ++ [(i, outcome)]⟩
  | _ => r

def move (r : Race τ α) : RaceMove → Race τ α
  | .turn i => r.turn i
  | .other step => { r with container := step.run r.container }

end Race

/-- Updates of one name that are called at the same time, and the states in which they begin. -/
structure Contest (τ α : Type) where
  store : BlobStore (Fiber (MemoryContainer × τ)) α
  name : String
  calls : List (UpdateCall τ α)
  container : MemoryContainer
  others : τ

namespace Contest

def start (k : Contest τ α) : Race τ α where
  container := k.container
  others := k.others
  running := k.calls.map fun u => some (u.fiber k.store k.name)
  returned := []

def after (k : Contest τ α) (moves : List RaceMove) : Race τ α := moves.foldl Race.move k.start

/-- The name exists, its entry can be read, the codec reads back what it writes of any payload, and
the mutations make something of any payload. -/
structure IsRegular (k : Contest τ α) (first : Entry) : Prop where
  container : k.store.container = MemoryContainer.paused
  update : k.store.capabilities.supports .update = true
  codec : ∀ payload, ∃ bytes,
    k.store.codec.encode payload = .ok bytes ∧ k.store.codec.decode bytes = .ok payload
  stored : k.container.entries.get? k.name = some first
  readable : ∃ payload, k.store.codec.decode first.bytes = .ok payload
  total : ∀ u ∈ k.calls, u.IsTotal

variable {k : Contest τ α} {first : Entry} {moves : List RaceMove} {m : RaceMove}

theorem after_append (moves : List RaceMove) (m : RaceMove) :
    k.after (moves ++ [m]) = (k.after moves).move m := by
  rw [after, List.foldl_append]
  rfl

theorem turnsOf_append {i : Nat} : turnsOf i (moves ++ [m]) =
    turnsOf i moves + if m.isTurnOf i then 1 else 0 := by
  rw [turnsOf, List.countP_append, List.countP_singleton, turnsOf]

/-! ### How far the updates have come -/

/-- The update has taken its first turn and read the payload that was stored then; from this its
mutation has made `new`. -/
def Read (k : Contest τ α) (moves : List RaceMove) (i : Nat) (u : UpdateCall τ α) (new : α) :
    Prop :=
  ∃ early mid entry old, moves = early ++ .turn i :: mid ∧ turnsOf i early = 0 ∧ turnsOf i mid = 0 ∧
    (k.after early).container.entries.get? k.name = some entry ∧
      k.store.codec.decode entry.bytes = .ok old ∧
        (runOn (u.mutate (some old)) (k.after early).others).1 = .ok new

/-- How far an update has come, by what remains of it. -/
inductive Stage (k : Contest τ α) (moves : List RaceMove) (i : Nat) (u : UpdateCall τ α) :
    Option (Remaining τ α) → Prop
  | fresh (hTurns : turnsOf i moves = 0) : Stage k moves i u (some (u.fiber k.store k.name))
  | armed (x : Remaining τ α) (new : α) (bytes : Bytes) (hTurns : turnsOf i moves = 1)
      (hRead : k.Read moves i u new) (hBytes : k.store.codec.encode new = .ok bytes)
      (hArmed : Armed k.store k.name bytes x) : Stage k moves i u (some x)
  | ended (p : Nat × Except StoreError (Outcome α)) (hNumber : p.1 = i)
      (hReturned : p ∈ (k.after moves).returned) : Stage k moves i u none

/-- The version of what an update has returned. -/
def stamp? (p : Nat × Except StoreError (Outcome α)) : Option String :=
  p.2.toOption.bind (·.1.metadata.version)

/-- The second of two updates has returned the higher version. -/
def Earlier (p q : Nat × Except StoreError (Outcome α)) : Prop :=
  ∃ m n : Nat, stamp? p = some (toString m) ∧ stamp? q = some (toString n) ∧ m < n

/-- What an update has returned: the entry as it has written it in its second turn. -/
structure Returned (k : Contest τ α) (first : Entry) (moves : List RaceMove)
    (p : Nat × Except StoreError (Outcome α)) (result : Resource α) (n : Nat) : Prop where
  succeeded : p.2 = .ok (result, false)
  version : result.metadata.version = some (toString n)
  version_le : n ≤ (k.after moves).container.revision
  uid : result.metadata.uid = some (.ofEntry first.uid)
  creationTime : result.metadata.creationTime = some first.creationTime
  wrote : ∃ u before late, k.calls[p.1]? = some u ∧ moves = before ++ .turn p.1 :: late ∧
    k.Read before p.1 u result.payload

/-- What holds between any two turns: every update is at its stage, what was returned has ascending
versions, and the stored entry is what was returned last. -/
structure Orderly (k : Contest τ α) (first : Entry) (moves : List RaceMove) : Prop where
  stage : ∀ i u, k.calls[i]? = some u → ∃ x, (k.after moves).running[i]? = some x ∧
    k.Stage moves i u x
  bounded : (k.after moves).running.length = k.calls.length
  returned : ∀ p ∈ (k.after moves).returned, ∃ result n, k.Returned first moves p result n
  ascending : (k.after moves).returned.Pairwise Earlier
  current : ∃ entry payload, (k.after moves).container.entries.get? k.name = some entry ∧
    k.store.codec.decode entry.bytes = .ok payload ∧ entry.uid = first.uid ∧
      entry.creationTime = first.creationTime ∧
        ∀ p ∈ (k.after moves).returned.getLast?, p.2 = .ok (⟨metadataOf entry, payload⟩, false)

/-! ### One move -/

theorem Read.append {i : Nat} {u : UpdateCall τ α} {new : α} (h : k.Read moves i u new)
    (hOther : m.isTurnOf i = false) : k.Read (moves ++ [m]) i u new := by
  obtain ⟨early, mid, entry, old, rfl, hEarly, hMid, hRead⟩ := h
  refine ⟨early, mid ++ [m], entry, old, ?_, hEarly, ?_, hRead⟩
  · rw [List.append_assoc, List.cons_append]
  · rw [turnsOf_append, hMid, hOther]
    rfl

theorem Stage.append {i : Nat} {u : UpdateCall τ α} {x : Option (Remaining τ α)}
    (h : k.Stage moves i u x) (hOther : x = none ∨ m.isTurnOf i = false)
    (hReturned : (k.after moves).returned ⊆ (k.after (moves ++ [m])).returned) :
    k.Stage (moves ++ [m]) i u x := by
  cases h with
  | fresh hTurns =>
    have hOther := hOther.resolve_left (Option.some_ne_none _)
    exact .fresh (by rw [turnsOf_append, hTurns, hOther]; rfl)
  | armed x new bytes hTurns hRead hBytes hArmed =>
    have hOther := hOther.resolve_left (Option.some_ne_none _)
    exact .armed x new bytes (by rw [turnsOf_append, hTurns, hOther]; rfl) (hRead.append hOther)
      hBytes hArmed
  | ended p hNumber hMem => exact .ended p hNumber (hReturned hMem)

theorem Returned.append {p : Nat × Except StoreError (Outcome α)} {result : Resource α} {n : Nat}
    (h : k.Returned first moves p result n)
    (hRevision : (k.after moves).container.revision ≤
      (k.after (moves ++ [m])).container.revision) :
    k.Returned first (moves ++ [m]) p result n where
  succeeded := h.succeeded
  version := h.version
  version_le := h.version_le.trans hRevision
  uid := h.uid
  creationTime := h.creationTime
  wrote := by
    obtain ⟨u, before, late, hCall, rfl, hRead⟩ := h.wrote
    exact ⟨u, before, late ++ [m], hCall, by rw [List.append_assoc, List.cons_append], hRead⟩

theorem Returned.stamp {p : Nat × Except StoreError (Outcome α)} {result : Resource α} {n : Nat}
    (h : k.Returned first moves p result n) : stamp? p = some (toString n) := by
  rw [stamp?, h.succeeded]
  exact h.version

end Contest

/-- What else happens to the container leaves an entry that it spares as it is. -/
theorem ContainerStep.get?_of_spares {name : String} {entry : Entry} {c : MemoryContainer}
    {step : ContainerStep} (hSpares : (RaceMove.other step).Spares name)
    (hStored : c.entries.get? name = some entry) :
    (step.run c).entries.get? name = some entry ∧ c.revision ≤ (step.run c).revision := by
  have hGet : ∀ {other : String} {entries : SortedMap String Entry}, other ≠ name →
      (∀ key, key ≠ other → entries.get? key = c.entries.get? key) →
        entries.get? name = some entry := fun hNe hSame => (hSame name hNe.symm).trans hStored
  match step with
  | .write (.create birth other bytes) =>
    simp only [run, ContainerWrite.run, bind_pure_comp, runOn_map, MemoryContainer.runOn_create]
    split
    · exact ⟨hStored, Nat.le_refl _⟩
    · rename_i hAbsent
      have hNe : other ≠ name := by
        rintro rfl
        exact hAbsent (SortedMap.contains_iff.2 ⟨entry, hStored⟩)
      exact ⟨hGet hNe fun _ => SortedMap.get?_insert_of_ne, Nat.le_succ _⟩
  | .write (.patch other bytes) =>
    simp only [run, ContainerWrite.run, bind_pure_comp, runOn_map, MemoryContainer.runOn_patch]
    cases c.entries.get? other with
    | none => exact ⟨hStored, Nat.le_refl _⟩
    | some old => exact ⟨hGet hSpares fun _ => SortedMap.get?_insert_of_ne, Nat.le_succ _⟩
  | .write (.delete other) =>
    simp only [run, ContainerWrite.run, bind_pure_comp, runOn_map, MemoryContainer.runOn_delete]
    cases c.entries.get? other with
    | none => exact ⟨hStored, Nat.le_refl _⟩
    | some old => exact ⟨hGet hSpares fun _ => SortedMap.get?_erase_of_ne, Nat.le_succ _⟩
  | .write .bookmark => exact ⟨hStored, Nat.le_refl _⟩
  | .watch _ | .receive _ | .cancel _ => exact ⟨hStored, Nat.le_refl _⟩

namespace Contest

variable {k : Contest τ α} {first : Entry} {moves : List RaceMove} {m : RaceMove} {i : Nat}
  {u : UpdateCall τ α}

/-- All that a turn of an update can do: nothing if the update has ended, or if there is none; read
and apply the mutation in the first turn; write and return in the second. -/
inductive TurnEffect (k : Contest τ α) (moves : List RaceMove) (i : Nat) : Race τ α → Prop
  | idle (hIdle : ∀ x, (k.after moves).running[i]? ≠ some (some x)) :
      TurnEffect k moves i (k.after moves)
  | read (u : UpdateCall τ α) (entry : Entry) (old new : α) (bytes : Bytes) (t : τ)
      (rest : Remaining τ α) (hCall : k.calls[i]? = some u) (hTurns : turnsOf i moves = 0)
      (hStored : (k.after moves).container.entries.get? k.name = some entry)
      (hDecode : k.store.codec.decode entry.bytes = .ok old)
      (hMutate : runOn (u.mutate (some old)) (k.after moves).others = (.ok new, t))
      (hBytes : k.store.codec.encode new = .ok bytes) (hArmed : Armed k.store k.name bytes rest) :
      TurnEffect k moves i ⟨(k.after moves).container, t,
        (k.after moves).running.set i (some rest), (k.after moves).returned⟩
  | wrote (u : UpdateCall τ α) (entry : Entry) (new : α) (bytes : Bytes)
      (hCall : k.calls[i]? = some u) (hRead : k.Read moves i u new)
      (hStored : (k.after moves).container.entries.get? k.name = some entry)
      (hDecode : k.store.codec.decode bytes = .ok new) :
      TurnEffect k moves i ⟨(k.after moves).container.afterPatch k.name entry bytes,
        (k.after moves).others, (k.after moves).running.set i none, (k.after moves).returned ++ [(i,
          .ok (⟨metadataOf ((k.after moves).container.patchedEntry entry bytes), new⟩, false))]⟩

namespace Orderly

variable (h : k.Orderly first moves)

include h

/-- A move after which nothing more is returned and the entry is as it was. -/
theorem quiet (hReturned : (k.after (moves ++ [m])).returned = (k.after moves).returned)
    (hLength : (k.after (moves ++ [m])).running.length = (k.after moves).running.length)
    (hRevision : (k.after moves).container.revision ≤
      (k.after (moves ++ [m])).container.revision)
    (hStored : ∀ entry, (k.after moves).container.entries.get? k.name = some entry →
      (k.after (moves ++ [m])).container.entries.get? k.name = some entry)
    (hStage : ∀ j v, k.calls[j]? = some v → ∃ x, (k.after (moves ++ [m])).running[j]? = some x ∧
      k.Stage (moves ++ [m]) j v x) :
    k.Orderly first (moves ++ [m]) := by
  obtain ⟨entry, payload, hEntry, hCurrent⟩ := h.current
  refine ⟨hStage, hLength.trans h.bounded, fun p hMem => ?_, hReturned ▸ h.ascending, entry,
    payload, hStored entry hEntry, hReturned ▸ hCurrent⟩
  obtain ⟨result, n, hOld⟩ := h.returned p (hReturned ▸ hMem)
  exact ⟨result, n, hOld.append hRevision⟩

/-- Something else happens to the container. -/
theorem other {step : ContainerStep} (hSpares : (RaceMove.other step).Spares k.name) :
    k.Orderly first (moves ++ [.other step]) := by
  have hAfter : k.after (moves ++ [.other step]) =
      { k.after moves with container := step.run (k.after moves).container } := after_append ..
  obtain ⟨entry, payload, hStored, -⟩ := h.current
  refine h.quiet (by rw [hAfter]) (by rw [hAfter]) ?_ (fun entry hStored => ?_) fun j v hCall => ?_
  · rw [hAfter]
    exact (ContainerStep.get?_of_spares hSpares hStored).2
  · rw [hAfter]
    exact (ContainerStep.get?_of_spares hSpares hStored).1
  · obtain ⟨x, hRunning, hStage⟩ := h.stage j v hCall
    exact ⟨x, by rw [hAfter]; exact hRunning,
      hStage.append (.inr rfl) (by rw [hAfter]; exact List.Subset.refl _)⟩

/-- The other updates are where they were when one has taken a turn. -/
theorem stage_turn {x : Option (Remaining τ α)} (hCall : k.calls[i]? = some u)
    (hRunning : (k.after (moves ++ [.turn i])).running = (k.after moves).running.set i x)
    (hReturned : (k.after moves).returned ⊆ (k.after (moves ++ [.turn i])).returned)
    (hStage : k.Stage (moves ++ [.turn i]) i u x) (j : Nat) (v : UpdateCall τ α)
    (hOther : k.calls[j]? = some v) :
    ∃ x, (k.after (moves ++ [.turn i])).running[j]? = some x ∧
      k.Stage (moves ++ [.turn i]) j v x := by
  rw [hRunning]
  by_cases hEq : j = i
  · subst hEq
    obtain rfl := Option.some.inj (hOther.symm.trans hCall)
    have hLt : j < (k.after moves).running.length :=
      h.bounded ▸ (List.getElem?_eq_some_iff.1 hCall).1
    exact ⟨x, List.getElem?_set_self hLt, hStage⟩
  · obtain ⟨y, hThere, hBefore⟩ := h.stage j v hOther
    rw [List.getElem?_set_ne (Ne.symm hEq)]
    exact ⟨y, hThere, hBefore.append (.inr (decide_eq_false hEq)) hReturned⟩

theorem turn_effect (hRegular : k.IsRegular first) (i : Nat) :
    k.TurnEffect moves i (k.after (moves ++ [.turn i])) := by
  rw [after_append, Race.move, Race.turn]
  split
  · rename_i x hRunning
    have hLt : i < k.calls.length := h.bounded ▸ (List.getElem?_eq_some_iff.1 hRunning).1
    have hCall : k.calls[i]? = some k.calls[i] := List.getElem?_eq_getElem hLt
    obtain ⟨entry, payload, hStored, hDecode, -⟩ := h.current
    obtain ⟨y, hThere, hStage⟩ := h.stage i _ hCall
    obtain rfl := Option.some.inj (hThere.symm.trans hRunning)
    cases hStage with
    | fresh hTurns =>
      obtain ⟨new, t, hMutate⟩ := hRegular.total _ (List.mem_of_getElem? hCall) payload
        (k.after moves).others
      obtain ⟨bytes, hBytes, -⟩ := hRegular.codec new
      obtain ⟨rest, hTurn, hArmed⟩ := UpdateCall.turn_fiber hRegular.container hRegular.update
        hStored hDecode hMutate hBytes
      rw [hTurn]
      exact .read _ entry payload new bytes t rest hCall hTurns hStored hDecode hMutate hBytes
        hArmed
    | armed _ new bytes _ hRead hBytes hArmed =>
      obtain ⟨written, hWritten, hDecode⟩ := hRegular.codec new
      obtain rfl : bytes = written := Except.ok.inj (hBytes.symm.trans hWritten)
      rw [hArmed _ _ entry new hStored hDecode]
      exact .wrote _ entry new bytes hCall hRead hStored hDecode
  · rename_i hNone
    exact .idle fun x hRunning => hNone x hRunning

/-- An update has replaced the entry and returned what is stored now, under a version above all that
were returned before. -/
theorem wrote {entry : Entry} {new : α} {bytes : Bytes} {result : Resource α}
    (hResult : result = ⟨metadataOf ((k.after moves).container.patchedEntry entry bytes), new⟩)
    (hAfter : k.after (moves ++ [.turn i]) =
      ⟨(k.after moves).container.afterPatch k.name entry bytes, (k.after moves).others,
        (k.after moves).running.set i none,
        (k.after moves).returned ++ [(i, .ok (result, false))]⟩)
    (hCall : k.calls[i]? = some u) (hRead : k.Read moves i u new)
    (hStored : (k.after moves).container.entries.get? k.name = some entry)
    (hDecode : k.store.codec.decode bytes = .ok new) : k.Orderly first (moves ++ [.turn i]) := by
  obtain ⟨entry', payload, hEntry, -, hUid, hTime, -⟩ := h.current
  obtain rfl := Option.some.inj (hStored.symm.trans hEntry)
  have hRevision : (k.after moves).container.revision ≤
      (k.after (moves ++ [.turn i])).container.revision := by
    rw [hAfter]
    exact Nat.le_succ _
  have hNew : k.Returned first (moves ++ [.turn i]) (i, .ok (result, false)) result
      ((k.after moves).container.revision + 1) := by
    subst hResult
    refine ⟨rfl, rfl, ?_, congrArg (fun uid => some (Uid.ofEntry uid)) hUid, congrArg some hTime,
      u, moves, [], hCall, rfl, hRead⟩
    rw [hAfter]
    exact Nat.le_refl _
  have hMem : (i, .ok (result, false)) ∈ (k.after (moves ++ [.turn i])).returned := by
    rw [hAfter]
    exact List.mem_append_right _ List.mem_cons_self
  refine ⟨h.stage_turn hCall (by rw [hAfter]) ?_ (.ended _ rfl hMem), ?_, fun p hMem => ?_, ?_, ?_⟩
  · rw [hAfter]
    exact List.subset_append_left _ _
  · rw [hAfter, List.length_set]
    exact h.bounded
  · rw [hAfter] at hMem
    rcases List.mem_append.1 hMem with hOld | hLast
    · obtain ⟨result, n, hReturned⟩ := h.returned p hOld
      exact ⟨result, n, hReturned.append hRevision⟩
    · obtain rfl := List.mem_singleton.1 hLast
      exact ⟨_, _, hNew⟩
  · rw [hAfter]
    refine List.pairwise_append.2
      ⟨h.ascending, List.pairwise_singleton .., fun p hOld q hLast => ?_⟩
    obtain rfl := List.mem_singleton.1 hLast
    obtain ⟨result, n, hReturned⟩ := h.returned p hOld
    exact ⟨n, _, hReturned.stamp, hNew.stamp, Nat.lt_succ_of_le hReturned.version_le⟩
  · refine ⟨(k.after moves).container.patchedEntry entry bytes, new, ?_, hDecode, hUid, hTime, ?_⟩
    · rw [hAfter]
      exact SortedMap.get?_insert_self
    · rw [hAfter, List.getLast?_concat, hResult]
      rintro p ⟨⟩
      rfl

theorem turn (hRegular : k.IsRegular first) (i : Nat) :
    k.Orderly first (moves ++ [.turn i]) := by
  have hEffect := h.turn_effect hRegular i
  generalize hAfter : k.after (moves ++ [.turn i]) = r at hEffect
  cases hEffect with
  | idle hIdle =>
    refine h.quiet (by rw [hAfter]) (by rw [hAfter]) (by rw [hAfter])
      (fun _ => by rw [hAfter]; exact id) fun j v hCall => ?_
    obtain ⟨x, hRunning, hStage⟩ := h.stage j v hCall
    refine ⟨x, hAfter ▸ hRunning, hStage.append ?_ (hAfter ▸ List.Subset.refl _)⟩
    cases x with
    | none => exact .inl rfl
    | some x =>
      refine .inr (decide_eq_false ?_)
      rintro rfl
      exact hIdle x hRunning
  | read u entry old new bytes t rest hCall hTurns hStored hDecode hMutate hBytes hArmed =>
    have hRead : k.Read (moves ++ [.turn i]) i u new :=
      ⟨moves, [], entry, old, rfl, hTurns, rfl, hStored, hDecode, by rw [hMutate]⟩
    have hOnce : turnsOf i (moves ++ [.turn i]) = 1 := by
      rw [turnsOf_append, hTurns]
      simp [RaceMove.isTurnOf]
    exact h.quiet (by rw [hAfter]) (by rw [hAfter, List.length_set]) (by rw [hAfter])
      (fun _ => by rw [hAfter]; exact id)
      (h.stage_turn hCall (by rw [hAfter]) (by rw [hAfter]; exact List.Subset.refl _)
        (.armed rest new bytes hOnce hRead hBytes hArmed))
  | wrote u entry new bytes hCall hRead hStored hDecode =>
    exact h.wrote rfl hAfter hCall hRead hStored hDecode

theorem move (hRegular : k.IsRegular first) (hSpares : m.Spares k.name) :
    k.Orderly first (moves ++ [m]) := by
  cases m with
  | turn i => exact h.turn hRegular i
  | other step => exact h.other hSpares

/-- No turn of an update touches the entry of another name. -/
theorem get?_turn (hRegular : k.IsRegular first) (i : Nat) {other : String}
    (hOther : other ≠ k.name) : (k.after (moves ++ [.turn i])).container.entries.get? other =
      (k.after moves).container.entries.get? other := by
  have hEffect := h.turn_effect hRegular i
  generalize k.after (moves ++ [.turn i]) = r at hEffect
  cases hEffect with
  | idle | read => rfl
  | wrote => exact SortedMap.get?_insert_of_ne hOther

end Orderly

theorem orderly_start (hRegular : k.IsRegular first) : k.Orderly first [] where
  stage i u hCall := by
    refine ⟨_, ?_, .fresh rfl⟩
    change (k.calls.map fun u => some (u.fiber k.store k.name))[i]? = _
    rw [List.getElem?_map, hCall, Option.map_some]
  bounded := List.length_map ..
  returned _ hMem := by cases hMem
  ascending := .nil
  current := by
    obtain ⟨payload, hDecode⟩ := hRegular.readable
    exact ⟨first, payload, hRegular.stored, hDecode, rfl, rfl, fun _ hLast => by cases hLast⟩

theorem orderly (hRegular : k.IsRegular first) (hSpares : ∀ m ∈ moves, m.Spares k.name) :
    k.Orderly first moves := by
  -- by the last move: what came before it is a run of the same contest
  induction moves using List.reverseRecOn with
  | nil => exact orderly_start hRegular
  | append_singleton moves m ih =>
    have hBefore := ih fun m hMem => hSpares m (List.mem_append_left _ hMem)
    exact hBefore.move hRegular (hSpares m (List.mem_append_right _ List.mem_cons_self))

theorem Earlier.ne {p q : Nat × Except StoreError (Outcome α)} (h : Earlier p q) :
    stamp? p ≠ stamp? q := by
  obtain ⟨m, n, hm, hn, hLt⟩ := h
  intro hEq
  have hSame : m = n := toString_injective (Option.some.inj (hm.symm.trans (hEq.trans hn)))
  omega

namespace Orderly

variable (h : k.Orderly first moves)

include h

/-- An update that has taken two turns has ended. -/
theorem ended (hCall : k.calls[i]? = some u) (hTurns : 2 ≤ turnsOf i moves) :
    ∃ result, (i, .ok (result, false)) ∈ (k.after moves).returned := by
  obtain ⟨x, -, hStage⟩ := h.stage i u hCall
  cases hStage with
  | fresh hNone => omega
  | armed _ _ _ hOne => omega
  | ended p hNumber hMem =>
    obtain ⟨result, n, hReturned⟩ := h.returned p hMem
    exact ⟨result, by rwa [← hNumber, ← hReturned.succeeded]⟩

/-- The update that has ended last has returned the highest version, and what is stored. -/
theorem last (hSome : (k.after moves).returned ≠ []) :
    ∃ p ∈ (k.after moves).returned, ∃ (entry : Entry) (payload : α) (n : Nat),
      (k.after moves).container.entries.get? k.name = some entry ∧
        k.store.codec.decode entry.bytes = .ok payload ∧
          p.2 = .ok (⟨metadataOf entry, payload⟩, false) ∧ stamp? p = some (toString n) ∧
            ∀ q ∈ (k.after moves).returned, ∃ m : Nat, stamp? q = some (toString m) ∧ m ≤ n := by
  obtain ⟨front, p, hSplit⟩ := (List.eq_nil_or_concat' _).resolve_left hSome
  have hMem : p ∈ (k.after moves).returned := by
    rw [hSplit]
    exact List.mem_append_right _ List.mem_cons_self
  obtain ⟨entry, payload, hStored, hDecode, -, -, hLast⟩ := h.current
  obtain ⟨result, n, hReturned⟩ := h.returned p hMem
  refine ⟨p, hMem, entry, payload, n, hStored, hDecode, hLast p ?_, hReturned.stamp,
    fun q hOther => ?_⟩
  · rw [hSplit, List.getLast?_concat]
    rfl
  · have hAscending := h.ascending
    rw [hSplit] at hOther hAscending
    rcases List.mem_append.1 hOther with hFront | hSelf
    · obtain ⟨m, n', hq, hp, hLt⟩ :=
        (List.pairwise_append.1 hAscending).2.2 q hFront p List.mem_cons_self
      obtain rfl : n = n' :=
        toString_injective (Option.some.inj (hReturned.stamp.symm.trans hp))
      exact ⟨m, hq, Nat.le_of_lt hLt⟩
    · obtain rfl := List.mem_singleton.1 hSelf
      exact ⟨n, hReturned.stamp, Nat.le_refl _⟩

end Orderly

end Contest

open Contest in
/-- Let any number of updates of one existing name take their turns in any order, while anything
else happens to the container but a removal of the name or a replacement of its bytes.  Let the
codec read back what it writes, and let the mutations be total.  Then at any time:

* an update that has taken two turns has ended, and none has failed or has created anything;
* the mutation of an update was given what was stored when the update took its first turn, and the
  update ended with its second one;
* the versions that were returned are different, and what is read is what was returned with the
  highest one;
* the identity of the resource has not changed;
* no turn of an update has touched the entry of another name. -/
theorem concurrent_updates_last_write_wins (k : Contest τ α) (first : Entry)
    (hRegular : k.IsRegular first) (hGet : k.store.capabilities.supports .get = true)
    (moves : List RaceMove) (hSpares : ∀ m ∈ moves, m.Spares k.name) :
    let r := k.after moves
    (∀ i u, k.calls[i]? = some u → 2 ≤ turnsOf i moves →
      ∃ result, (i, .ok (result, false)) ∈ r.returned) ∧
    (∀ p ∈ r.returned, ∃ result u early mid late entry old,
      p.2 = .ok (result, false) ∧ k.calls[p.1]? = some u ∧
      moves = early ++ .turn p.1 :: mid ++ .turn p.1 :: late ∧
      turnsOf p.1 early = 0 ∧ turnsOf p.1 mid = 0 ∧
      (k.after early).container.entries.get? k.name = some entry ∧
      k.store.codec.decode entry.bytes = .ok old ∧
      (runOn (u.mutate (some old)) (k.after early).others).1 = .ok result.payload) ∧
    (r.returned.map stamp?).Nodup ∧
    (r.returned ≠ [] → ∃ (i : Nat) (result : Resource α) (n : Nat),
      (i, .ok (result, false)) ∈ r.returned ∧ result.metadata.version = some (toString n) ∧
      (∀ p ∈ r.returned, ∃ m : Nat, stamp? p = some (toString m) ∧ m ≤ n) ∧
      (k.store.get k.name).run.run (r.container, r.others) =
        (.ok result, r.container, r.others)) ∧
    (∃ entry, r.container.entries.get? k.name = some entry ∧ entry.uid = first.uid ∧
      entry.creationTime = first.creationTime) ∧
    (∀ i result created, (i, .ok (result, created)) ∈ r.returned →
      result.metadata.uid = some (.ofEntry first.uid) ∧
        result.metadata.creationTime = some first.creationTime) ∧
    ∀ early i late other, moves = early ++ .turn i :: late → other ≠ k.name →
      (k.after (early ++ [.turn i])).container.entries.get? other =
        (k.after early).container.entries.get? other := by
  intro r
  have h : k.Orderly first moves := orderly hRegular hSpares
  refine ⟨fun i u => h.ended, fun p hMem => ?_, List.pairwise_map.2 (h.ascending.imp (·.ne)),
    fun hSome => ?_, ?_, fun i result created hMem => ?_, ?_⟩
  · obtain ⟨result, n, hReturned⟩ := h.returned p hMem
    obtain ⟨u, before, late, hCall, hMoves, early, mid, entry, old, rfl, hEarly, hMid, hRead⟩ :=
      hReturned.wrote
    exact ⟨result, u, early, mid, late, entry, old, hReturned.succeeded, hCall, hMoves, hEarly,
      hMid, hRead⟩
  · obtain ⟨p, hMem, entry, payload, n, hStored, hDecode, hLast, hStamp, hHighest⟩ := h.last hSome
    refine ⟨p.1, ⟨metadataOf entry, payload⟩, n, hLast ▸ hMem, ?_, hHighest,
      BlobStore.run_get hRegular.container hGet _ hStored hDecode⟩
    rw [stamp?, hLast] at hStamp
    exact hStamp
  · obtain ⟨entry, payload, hStored, -, hUid, hTime, -⟩ := h.current
    exact ⟨entry, hStored, hUid, hTime⟩
  · obtain ⟨result', n, hReturned⟩ := h.returned _ hMem
    obtain ⟨rfl, -⟩ := Prod.mk.inj (Except.ok.inj hReturned.succeeded)
    exact ⟨hReturned.uid, hReturned.creationTime⟩
  · rintro early i late other rfl hOther
    have hBefore : k.Orderly first early :=
      orderly hRegular fun m hMem => hSpares m (List.mem_append_left _ hMem)
    exact hBefore.get?_turn hRegular i hOther

def Mutation.appending (byte : UInt8) : Mutation (StateM Unit) Bytes := fun old =>
  return old.getD [] ++ [byte]

def Contest.ofTwo : Contest Unit Bytes :=
  let call : Call := ⟨⟨"alice", []⟩, ⟨5, 0⟩, "2", "abcde"⟩
  { store := ⟨.organization, MemoryContainer.paused, .verbatim, {}, .all⟩
    name := "a"
    calls := [⟨call, .appending 2, false⟩, ⟨call, .appending 3, true⟩]
    container := (runOn (MemoryContainer.create ⟨"1", ⟨0, 0⟩⟩ "a" [1]) (.ofCapacity 8)).2
    others := () }

/-- Both updates read before one of them writes; another name is taken in between, and `a` cannot be
taken once more. -/
def RaceMove.lockstep : List RaceMove :=
  [.turn 0, .turn 1, .other (.write (.create ⟨"3", ⟨7, 0⟩⟩ "b" [])), .turn 1,
    .other (.write (.create ⟨"4", ⟨8, 0⟩⟩ "a" [])), .turn 0]

theorem concurrent_updates_last_write_wins_lockstep :
    let k := Contest.ofTwo
    let r := k.after RaceMove.lockstep
    (∃ first, k.IsRegular first) ∧ k.store.capabilities.supports .get = true ∧
    (∀ m ∈ RaceMove.lockstep, m.Spares k.name) ∧
    (∀ i < 2, ∃ result, (i, .ok (result, false)) ∈ r.returned) ∧
    ∃ i result, (i, .ok (result, false)) ∈ r.returned ∧ result.payload = [1, 2] ∧
      (k.store.get k.name).run.run (r.container, r.others) =
        (.ok result, r.container, r.others) := by
  intro k r
  have hRegular : k.IsRegular ⟨"a", [1], "1", ⟨0, 0⟩, "1"⟩ := by
    refine ⟨rfl, rfl, fun payload => ⟨payload, rfl, rfl⟩, by decide +kernel, ⟨[1], rfl⟩,
      fun u hMem => ?_⟩
    simp only [k, Contest.ofTwo, List.mem_cons, List.not_mem_nil, or_false] at hMem
    rcases hMem with rfl | rfl <;> exact fun old t => ⟨_, t, rfl⟩
  have hSpares : ∀ m ∈ RaceMove.lockstep, m.Spares k.name := by
    simp only [RaceMove.lockstep, List.forall_mem_cons]
    exact ⟨trivial, trivial, trivial, trivial, trivial, trivial, List.forall_mem_nil _⟩
  obtain ⟨hEnded, -, -, hLast, -⟩ :=
    concurrent_updates_last_write_wins k _ hRegular rfl RaceMove.lockstep hSpares
  have hTurns : ∀ i < 2, i < k.calls.length ∧ 2 ≤ turnsOf i RaceMove.lockstep := by decide +kernel
  have hBoth : ∀ i < 2, ∃ result, (i, .ok (result, false)) ∈ r.returned := fun i hLt =>
    hEnded i _ (List.getElem?_eq_getElem (hTurns i hLt).1) (hTurns i hLt).2
  obtain ⟨_, hMem⟩ := hBoth 0 (by decide)
  obtain ⟨i, result, -, hReturned, -, -, hGet⟩ := hLast (List.ne_nil_of_mem hMem)
  refine ⟨⟨_, hRegular⟩, rfl, hSpares, hBoth, i, result, hReturned, ?_, hGet⟩
  have hPayload : ((k.store.get k.name).run.run (r.container, r.others)).1.toOption.map
      (·.payload) = some [1, 2] := by decide +kernel
  rw [hGet] at hPayload
  exact Option.some.inj hPayload

end Tenancy
