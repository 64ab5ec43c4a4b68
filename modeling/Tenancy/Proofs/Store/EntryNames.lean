import Tenancy.Proofs.Store.GeneratedName
import Tenancy.Proofs.Store.Identity

/-!
# Names of entries

A store checks a name before it asks its container to create an entry under it, whatever the
container is.  So every entry that a store adds has a valid name, and it is stored under that name.
If the name is generated, what is kept of the stem decides whether it passes the check.

* `BlobStore.create_of_stem`: a creation with a stem, by what is kept of the stem.
* `BlobStore.store_underValidNames`: it does not matter what a container does when it is asked to
  create entries under other names.
* `Deed.valid_of_added`, `Deed.namedWithin`: what a request does to the names in a container in
  memory.
* `SharedStep`: what happens to a store over a container in memory that others use as well.
* `generated_names_valid_by_stem`: which generated names are valid, and what that means for every
  run.
-/

namespace Tenancy

variable {τ α : Type}

/-! ## Checked names -/

section AnyContainer

variable {m : Type → Type} [Monad m]

namespace BlobStore

theorem checkedName_of_valid {name : String} (hValid : isValidName name = true) :
    checkedName name = .ok () := by
  rw [isValidName] at hValid
  rw [checkedName]
  cases hCheck : checkName name with
  | error fault =>
    rw [hCheck] at hValid
    cases hValid
  | ok _ => rfl

theorem checkedName_of_invalid {name : String} (hInvalid : ¬ isValidName name = true) :
    ∃ reason, checkedName name = .error (.validationFailed reason) := by
  rw [isValidName] at hInvalid
  rw [checkedName]
  cases hCheck : checkName name with
  | error fault => exact ⟨fault.message, rfl⟩
  | ok _ =>
    rw [hCheck] at hInvalid
    exact absurd rfl hInvalid

section Bind

variable [LawfulMonad m] {β : Type} {name : String}

theorem checkedName_bind_of_valid (hValid : isValidName name = true)
    (f : Unit → ExceptT StoreError m β) :
    ((liftM (checkedName name) : ExceptT StoreError m Unit) >>= f) = f () := by
  rw [checkedName_of_valid hValid]
  exact pure_bind () f

theorem checkedName_bind_of_invalid (hInvalid : ¬ isValidName name = true) :
    ∃ reason, ∀ f : Unit → ExceptT StoreError m β,
      ((liftM (checkedName name) : ExceptT StoreError m Unit) >>= f) =
        throw (.validationFailed reason) := by
  obtain ⟨reason, hError⟩ := checkedName_of_invalid hInvalid
  refine ⟨reason, fun f => ?_⟩
  rw [hError]
  exact ExceptT.ext (pure_bind (Except.error (StoreError.validationFailed reason)) _)

/-- What comes after the check of a name matters for valid names only. -/
theorem checkedName_bind_congr {f g : Unit → ExceptT StoreError m β}
    (hEq : isValidName name = true → f () = g ()) :
    ((liftM (checkedName name) : ExceptT StoreError m Unit) >>= f) =
      (liftM (checkedName name) : ExceptT StoreError m Unit) >>= g := by
  by_cases hValid : isValidName name = true
  · rw [checkedName_bind_of_valid hValid, checkedName_bind_of_valid hValid, hEq hValid]
  · obtain ⟨reason, hThrow⟩ := checkedName_bind_of_invalid (m := m) (β := β) hValid
    rw [hThrow f, hThrow g]

end Bind

/-! ## Creations with a stem -/

theorem assignedName_of_stem (call : Call) {metadata : ObjectMeta} {stem : String}
    (hName : metadata.name = "") (hStem : metadata.generateName = some stem) :
    assignedName call metadata = generateName stem call.draw := by
  rw [assignedName, hStem, hName]
  rfl

/-- What is drawn for a name does not decide whether the name passes. -/
theorem create_of_stem [LawfulMonad m] (s : BlobStore m α) (call : Call) {r : Resource α}
    {stem : String} (hName : r.name = "") (hStem : r.metadata.generateName = some stem)
    (hDraw : IsDraw call.draw) :
    (IsNameStem (keptStem stem) → s.create call r = do
      s.capabilities.require .create
      s.createEntry call.birth (generateName stem call.draw) r.payload) ∧
    (¬ IsNameStem (keptStem stem) → ∃ reason, s.create call r = do
      s.capabilities.require .create
      throw (.validationFailed reason)) := by
  rw [← isValidName_generateName_iff hDraw, create, assignedName_of_stem call hName hStem]
  constructor
  · intro hValid
    exact bind_congr fun _ => checkedName_bind_of_valid hValid _
  · intro hInvalid
    obtain ⟨reason, hThrow⟩ := checkedName_bind_of_invalid (m := m) (β := Resource α) hInvalid
    exact ⟨reason, bind_congr fun _ => hThrow _⟩

/-! ## Any container -/

variable (s : BlobStore m α) (otherwise : Birth → String → Bytes → ExceptT ContainerError m Entry)

/-- The store over a container that is asked to create entries under valid names only; `otherwise`
is what happens in place of other creations. -/
def underValidNames : BlobStore m α :=
  { s with container :=
    { s.container with
      create := fun birth name bytes =>
        if isValidName name then s.container.create birth name bytes
        else otherwise birth name bytes } }

theorem createEntry_underValidNames {name : String} (hValid : isValidName name = true)
    (birth : Birth) (payload : α) :
    (s.underValidNames otherwise).createEntry birth name payload =
      s.createEntry birth name payload := by
  simp only [createEntry, underValidNames, hValid, if_true]
  rfl

theorem create_underValidNames [LawfulMonad m] (call : Call) (r : Resource α) :
    (s.underValidNames otherwise).create call r = s.create call r := by
  refine bind_congr fun _ => checkedName_bind_congr fun hValid => ?_
  exact s.createEntry_underValidNames otherwise hValid call.birth r.payload

theorem update_underValidNames [LawfulMonad m] (call : Call) (name : String)
    (mutate : Mutation m α) (allowCreate : Bool) :
    (s.underValidNames otherwise).update call name mutate allowCreate =
      s.update call name mutate allowCreate := by
  refine bind_congr fun _ => bind_congr fun found => ?_
  cases found with
  | some old => rfl
  | none =>
    have hCreation : ((do
        checkedName name
        let payload ← mutate none
        return (← (s.underValidNames otherwise).createEntry call.birth name payload, true)) :
          ExceptT StoreError m (Outcome α)) = do
        checkedName name
        let payload ← mutate none
        return (← s.createEntry call.birth name payload, true) := by
      refine checkedName_bind_congr fun hValid => bind_congr fun payload => ?_
      rw [s.createEntry_underValidNames otherwise hValid call.birth payload]
    -- without permission to create there is an error first, and what follows is as above
    cases allowCreate with
    | false => exact bind_congr fun _ => hCreation
    | true => exact hCreation

theorem store_underValidNames [LawfulMonad m] : (s.underValidNames otherwise).store = s.store := by
  have hCreate : (s.underValidNames otherwise).create = s.create :=
    funext fun call => funext fun r => s.create_underValidNames otherwise call r
  have hUpdate : (s.underValidNames otherwise).update = s.update :=
    funext fun call => funext fun name => funext fun mutate => funext fun allowCreate =>
      s.update_underValidNames otherwise call name mutate allowCreate
  simp only [store, hCreate, hUpdate]
  rfl

end BlobStore

end AnyContainer

/-! ## Names of stored entries -/

/-- Every entry is stored under its own name, which is valid or one of `others`. -/
def NamedWithin (others : String → Prop) (entries : SortedMap String Entry) : Prop :=
  ∀ name entry, entries.get? name = some entry →
    entry.name = name ∧ (isValidName name = true ∨ others name)

section NamedWithin

variable {others : String → Prop} {entries : SortedMap String Entry} {name : String}
  {entry : Entry}

theorem NamedWithin.insert (h : NamedWithin others entries) (hName : entry.name = name)
    (hWithin : isValidName name = true ∨ others name) :
    NamedWithin others (entries.insert name entry) :=
  SortedMap.forall_get?_insert h ⟨hName, hWithin⟩

theorem NamedWithin.erase (h : NamedWithin others entries) (name : String) :
    NamedWithin others (entries.erase name) :=
  SortedMap.forall_get?_erase h

variable {c c' : MemoryContainer} {shown : List ObjectMeta} {removed : Option String}

theorem Deed.namedWithin (hDeed : Deed c shown removed c') (h : NamedWithin others c.entries) :
    NamedWithin others c'.entries := by
  cases hDeed with
  | read _ _ hEntries => rwa [hEntries]
  | created birth name bytes _ hValid => exact h.insert rfl (.inl hValid)
  | replaced name old bytes _ hStored =>
    exact h.insert (h name old hStored).1 (h name old hStored).2
  | removed name old => exact h.erase name

/-- What a request stores under a name that was free. -/
theorem Deed.valid_of_added (hDeed : Deed c shown removed c')
    (hStored : c'.entries.get? name = some entry) (hFree : c.entries.get? name = none) :
    isValidName name = true ∧ entry.name = name := by
  cases hDeed with
  | read _ _ hEntries =>
    rw [hEntries, hFree] at hStored
    cases hStored
  | created birth new bytes _ hValid =>
    rw [MemoryContainer.afterCreate_entries, SortedMap.get?_insert] at hStored
    split at hStored
    · rename_i hName
      subst hName
      obtain rfl := Option.some.inj hStored
      exact ⟨hValid, rfl⟩
    · rw [hFree] at hStored
      cases hStored
  | replaced other old bytes _ hOld =>
    have hNe : name ≠ other := by
      rintro rfl
      rw [hFree] at hOld
      cases hOld
    rw [MemoryContainer.afterPatch_entries, SortedMap.get?_insert_of_ne hNe, hFree] at hStored
    cases hStored
  | removed other old =>
    have hBefore := SortedMap.of_get?_erase hStored
    rw [hFree] at hBefore
    cases hBefore

theorem ContainerWrite.namedWithin (w : ContainerWrite)
    (hOthers : ∀ birth name bytes, w = .create birth name bytes → others name)
    (h : NamedWithin others c.entries) : NamedWithin others (runOn w.run c).2.entries := by
  cases w with
  | create birth name bytes =>
    simp only [run, bind_pure_comp, runOn_map, MemoryContainer.runOn_create]
    split
    · exact h
    · exact h.insert rfl (.inr (hOthers birth name bytes rfl))
  | patch name bytes =>
    simp only [run, bind_pure_comp, runOn_map, MemoryContainer.runOn_patch]
    cases hStored : c.entries.get? name with
    | none => exact h
    | some old => exact h.insert (h name old hStored).1 (h name old hStored).2
  | delete name =>
    simp only [run, bind_pure_comp, runOn_map, MemoryContainer.runOn_delete]
    cases c.entries.get? name with
    | none => exact h
    | some old => exact h.erase name
  | bookmark => exact h

end NamedWithin

/-! ## Runs -/

/-- What happens to a store over a container in memory that others use as well. -/
inductive SharedStep (τ α : Type) where
  | request (call : Call) (q : CollectionRequest τ α)
  | other (step : ContainerStep)

namespace SharedStep

section Definitions

variable (s : BlobStore (StateM (MemoryContainer × τ)) α)

def run : SharedStep τ α → MemoryContainer × τ → MemoryContainer × τ
  | .request call q, st => (runOn ((q.on ofMutations).run s.store call) st).2
  | .other step, st => (step.run st.1, st.2)

def runAll (steps : List (SharedStep τ α)) (st : MemoryContainer × τ) : MemoryContainer × τ :=
  steps.foldl (fun st step => step.run s st) st

/-- The entries that the store adds in a step, with the names that they are stored under. -/
def added (step : SharedStep τ α) (st : MemoryContainer × τ) : List (String × Entry) :=
  match step with
  | .request _ _ => (step.run s st).1.entries.toList.filter fun e => !st.1.entries.contains e.1
  | .other _ => []

def creations : List (SharedStep τ α) → MemoryContainer × τ → List (String × Entry)
  | [], _ => []
  | step :: steps, st => step.added s st ++ creations steps (step.run s st)

end Definitions

variable {s : BlobStore (StateM (MemoryContainer × τ)) α}
  (hContainer : s.container = MemoryContainer.container besideMutations.cell)
  {st : MemoryContainer × τ} {e : String × Entry}

include hContainer

theorem valid_of_mem_added {step : SharedStep τ α} (hMem : e ∈ step.added s st) :
    isValidName e.1 = true ∧ e.2.name = e.1 := by
  cases step with
  | other _ => cases hMem
  | request call q =>
    obtain ⟨hStored, hFree⟩ := List.mem_filter.1 hMem
    rw [Bool.not_eq_true', SortedMap.contains_eq_false_iff] at hFree
    exact (BlobStore.deed_request hContainer call st.1 st.2 q).valid_of_added
      (SortedMap.get?_eq_some_iff.2 hStored) hFree

theorem valid_of_mem_creations {steps : List (SharedStep τ α)}
    (hMem : e ∈ creations s steps st) : isValidName e.1 = true ∧ e.2.name = e.1 := by
  induction steps generalizing st with
  | nil => cases hMem
  | cons step steps ih =>
    rcases List.mem_append.1 hMem with hNow | hLater
    · exact valid_of_mem_added hContainer hNow
    · exact ih hLater

variable {others : String → Prop}

theorem namedWithin_step {step : SharedStep τ α}
    (hOthers : ∀ birth name bytes, step = .other (.write (.create birth name bytes)) → others name)
    (h : NamedWithin others st.1.entries) : NamedWithin others (step.run s st).1.entries := by
  cases step with
  | request call q => exact (BlobStore.deed_request hContainer call st.1 st.2 q).namedWithin h
  | other step =>
    cases step with
    | write w =>
      exact w.namedWithin (fun birth name bytes hEq => hOthers birth name bytes (hEq ▸ rfl)) h
    | watch _ | receive _ | cancel _ => exact h

theorem namedWithin_run {steps : List (SharedStep τ α)}
    (hOthers : ∀ birth name bytes,
      .other (.write (.create birth name bytes)) ∈ steps → others name)
    (h : NamedWithin others st.1.entries) : NamedWithin others (runAll s steps st).1.entries := by
  induction steps generalizing st with
  | nil => exact h
  | cons step steps ih =>
    refine ih (fun birth name bytes hMem => hOthers birth name bytes (.tail _ hMem)) ?_
    exact namedWithin_step hContainer
      (fun birth name bytes hEq => hOthers birth name bytes (hEq ▸ .head _)) h

end SharedStep

/-- A generated name keeps of its stem what lies before the first place between two characters that
is met on the way back from byte 248, or from the end of a shorter stem.  There always is such a
place, and what is kept is the longest beginning of the stem that has at most 248 bytes.  Whatever
is drawn, the name has at most 253 bytes, and it is valid exactly if what is kept has only the
characters of names and does not begin with a hyphen or a dot.

A store over any container does the same whatever the container would do if it were asked to create
an entry under a name that is not valid; and whether a creation without a name passes the check is
told by the stem.

In every run of a store over a container in memory that others use as well, the entries that the
store adds are stored under their own names, and these are valid.  If the container was new, all
entries are stored under their own names, and a name is valid or others have created an entry under
it. -/
theorem generated_names_valid_by_stem :
    (∀ stem : String,
      cutBack? 248 stem = some (keptStem stem) ∧ IsClip 248 stem (keptStem stem) ∧
      ∀ draw, IsDraw draw → generateName stem draw = keptStem stem ++ draw ∧
        (generateName stem draw).utf8ByteSize ≤ 253 ∧
        (isValidName (generateName stem draw) = true ↔ IsNameStem (keptStem stem))) ∧
    (∀ {m : Type → Type} [Monad m] [LawfulMonad m] (s : BlobStore m α),
      (∀ otherwise, (s.underValidNames otherwise).store = s.store) ∧
      ∀ (call : Call) (r : Resource α) (stem : String), r.name = "" →
        r.metadata.generateName = some stem → IsDraw call.draw →
        (IsNameStem (keptStem stem) → s.create call r = do
          s.capabilities.require .create
          s.createEntry call.birth (generateName stem call.draw) r.payload) ∧
        (¬ IsNameStem (keptStem stem) → ∃ reason, s.create call r = do
          s.capabilities.require .create
          throw (.validationFailed reason))) ∧
    ∀ s : BlobStore (StateM (MemoryContainer × τ)) α,
      s.container = MemoryContainer.container besideMutations.cell →
      (∀ steps st, ∀ e ∈ SharedStep.creations s steps st,
        isValidName e.1 = true ∧ e.2.name = e.1) ∧
      ∀ (capacity : Nat) (t : τ) (steps : List (SharedStep τ α)) (others : String → Prop),
        (∀ birth name bytes, .other (.write (.create birth name bytes)) ∈ steps → others name) →
        NamedWithin others (SharedStep.runAll s steps (.ofCapacity capacity, t)).1.entries := by
  refine ⟨fun stem => ?_, fun s => ⟨fun otherwise => s.store_underValidNames otherwise, ?_⟩,
    fun s hContainer => ⟨?_, ?_⟩⟩
  · have hClip : IsClip 248 stem (keptStem stem) := isClip_clipBytes 248 stem
    exact ⟨hClip.cutBack?_eq_some, hClip, fun draw hDraw =>
      ⟨rfl, utf8ByteSize_generateName hDraw stem, isValidName_generateName_iff hDraw⟩⟩
  · intro call r stem hName hStem hDraw
    exact s.create_of_stem call hName hStem hDraw
  · intro steps st e hMem
    exact SharedStep.valid_of_mem_creations hContainer hMem
  · intro capacity t steps others hOthers
    have hNew : NamedWithin others (MemoryContainer.ofCapacity capacity).entries :=
      fun _ _ hGet => by cases hGet
    exact SharedStep.namedWithin_run hContainer hOthers hNew

/-- A stem whose last character begins at byte 247 and ends at byte 249. -/
def accentedStem : String := String.ofList (List.replicate 247 'a' ++ ['é'])

def Call.drawing (uid : String) : Call := ⟨⟨"alice", []⟩, ⟨10, 0⟩, uid, "abcde"⟩

/-- Others create an entry under a name that is not valid.  Then the store is asked for four
creations, two of which it refuses, to change that entry, and to remove one of its own. -/
def SharedStep.visits : List (SharedStep Unit Bytes) :=
  [.other (.write (.create ⟨"1", ⟨5, 0⟩⟩ "Not valid" [1])),
    .request (.drawing "2") (.one (.write (.create (.generated "acme-" [2])))),
    .request (.drawing "3") (.one (.write (.create (.generated "-" [3])))),
    .request (.drawing "4") (.one (.write (.update "b" (fun _ => return [4]) true))),
    .request (.drawing "5") (.one (.write (.create (.named "Invalid" [5])))),
    .request (.drawing "6") (.one (.write (.update "Not valid" (fun _ => return [6]) true))),
    .request (.drawing "7") (.one (.delete "b"))]

theorem generated_names_valid_by_stem_accented :
    let added := SharedStep.creations .ofBytes SharedStep.visits (.ofCapacity 4, ())
    let last := (SharedStep.runAll .ofBytes SharedStep.visits (.ofCapacity 4, ())).1.entries
    cutBack? 248 accentedStem = some (String.ofList (List.replicate 247 'a')) ∧
    IsDraw "abcde" ∧ isValidName (generateName accentedStem "abcde") = true ∧
    (∃ reason, BlobStore.ofBytes.create (.drawing "3") (.generated "-" [3]) = do
      BlobStore.ofBytes.capabilities.require .create
      throw (.validationFailed reason)) ∧
    added.map (·.1) = ["acme-abcde", "b"] ∧
    (∀ e ∈ added, isValidName e.1 = true ∧ e.2.name = e.1) ∧
    last.keys = ["Not valid", "acme-abcde"] ∧ NamedWithin (· = "Not valid") last := by
  intro added last
  obtain ⟨hNames, hAny, hRun⟩ := generated_names_valid_by_stem (τ := Unit) (α := Bytes)
  obtain ⟨hAdded, hStored⟩ := hRun .ofBytes rfl
  obtain ⟨hCut, -, hDrawn⟩ := hNames accentedStem
  have hKept : keptStem accentedStem = String.ofList (List.replicate 247 'a') := by
    have hTaken : takeBytes 248 (List.replicate 247 'a' ++ ['é']) = List.replicate 247 'a' := by
      decide +kernel
    calc keptStem accentedStem = String.ofList (takeBytes 248 accentedStem.toList) := rfl
      _ = String.ofList (takeBytes 248 (List.replicate 247 'a' ++ ['é'])) :=
        congrArg (fun cs => String.ofList (takeBytes 248 cs)) String.toList_ofList
      _ = String.ofList (List.replicate 247 'a') := congrArg String.ofList hTaken
  have hStem : IsNameStem (keptStem accentedStem) := by
    rw [hKept]
    refine ⟨fun c hMem => ?_, .inr ⟨'a', ?_, by decide⟩⟩
    · rw [String.toList_ofList] at hMem
      rw [List.eq_of_mem_replicate hMem]
      decide
    · rw [String.toList_ofList, List.head?_replicate]
      rfl
  have hHyphen : ¬ IsNameStem (keptStem "-") := by
    rintro ⟨-, hEmpty | ⟨c, hHead, hBegins⟩⟩
    · revert hEmpty
      decide
    · obtain rfl : '-' = c := Option.some.inj hHead
      revert hBegins
      decide
  have hDraw : IsDraw "abcde" := by decide
  have hOthers : ∀ birth name bytes,
      .other (.write (.create birth name bytes)) ∈ SharedStep.visits → name = "Not valid" := by
    intro birth name bytes hMem
    simp only [SharedStep.visits, List.mem_cons, List.not_mem_nil, reduceCtorEq, or_false,
      SharedStep.other.injEq, ContainerStep.write.injEq, ContainerWrite.create.injEq] at hMem
    exact hMem.2.1
  exact ⟨hKept ▸ hCut, hDraw, (hDrawn "abcde" hDraw).2.2.2 hStem,
    ((hAny .ofBytes).2 (.drawing "3") (.generated "-" [3]) "-" rfl rfl hDraw).2 hHyphen,
    by decide +kernel, hAdded SharedStep.visits _, by decide +kernel,
    hStored 4 () SharedStep.visits _ hOthers⟩

end Tenancy
