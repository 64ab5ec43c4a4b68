import Tenancy.Proofs.Organization.Calls

/-!
# Organizations and their owner grants

Every stored organization has its owner role and its owner binding, and there are no others of such
names, whatever is called and however it ends.  Names that are cut may collide; then the second
organization of the two is refused, so that among the stored ones the names of grants are apart.

* `Corresponds`: the correspondence, an invariant of every step (`Register.agrees_step`).
* `owner_grants_correspond`: it holds after every run; a call that fails leaves organizations and
  grants as they were, and a deletion takes away the two grants of its organization.
-/

namespace Tenancy

/-! ## Steps -/

inductive Step where
  | write (call : Call) (w : Write ApiState Organization)
  | delete (call : Call) (name : String)
  | grant (w : GrantWrite)

/-- Payloads are read back as they were written, and no grant under the name of an owner grant is
written directly. -/
inductive Step.IsAdmissible : Step → Prop
  | write (call : Call) {w : Write ApiState Organization} (hStores : w.Stores ApiState.Readable) :
      IsAdmissible (.write call w)
  | delete (call : Call) (name : String) : IsAdmissible (.delete call name)
  | grant {w : GrantWrite} (hName : ∀ X, w.name ≠ ownerName .organization X) :
      IsAdmissible (.grant w)

/-- The state together with a record of who founded what. -/
structure Register where
  state : ApiState
  /-- The name of the actor whose call created the organization. -/
  founder : String → Option String

namespace Register

def fresh (config : StoreConfig) (grants : GrantTable) : Register :=
  ⟨.fresh config grants, fun _ => none⟩

def setFounder (founder : String → Option String) (name : String) (actor : Option String) :
    String → Option String :=
  fun other => if other = name then actor else founder other

/-- The register after a step.  Who founded what is read off the calls and their results. -/
def step (config : StoreConfig) (g : Register) : Step → Register
  | .write call w =>
    match runOn (w.run (ResourceApi.inMemory config).organizations call) g.state with
    | (.ok (r, true), st) => ⟨st, setFounder g.founder r.name (some call.actor.name)⟩
    | (_, st) => ⟨st, g.founder⟩
  | .delete call name =>
    match runOn ((ResourceApi.inMemory config).organizations.delete call name) g.state with
    | (.ok (r, _), st) => ⟨st, setFounder g.founder r.name none⟩
    | (.error _, st) => ⟨st, g.founder⟩
  | .grant w => ⟨(runOn (w.run (GrantTable.grants ApiState.table.cell)) g.state).2, g.founder⟩

def run (config : StoreConfig) (g : Register) (steps : List Step) : Register :=
  steps.foldl (step config) g

end Register

/-! ## The correspondence -/

/-- Organizations and owner grants go together. -/
structure Corresponds (organizations : SortedMap String Entry) (grants : GrantTable)
    (founder : String → Option String) : Prop where
  /-- An entry is stored under its own name. -/
  named : ∀ X entry, organizations.get? X = some entry → entry.name = X
  injective : ∀ X Y, organizations.contains X = true → organizations.contains Y = true →
    ownerName .organization X = ownerName .organization Y → X = Y
  role_iff : ∀ Z, grants.roles.contains (ownerName .organization Z) = true ↔
    ∃ X, organizations.contains X = true ∧ ownerName .organization X = ownerName .organization Z
  binding_iff : ∀ Z, grants.bindings.contains (ownerName .organization Z) = true ↔
    ∃ X, organizations.contains X = true ∧ ownerName .organization X = ownerName .organization Z
  role : ∀ X, organizations.contains X = true →
    ∃ role, grants.roles.get? (ownerName .organization X) = some role ∧
      role.permissions.toList = [.named .organization .all X]
  binding : ∀ X, organizations.contains X = true →
    ∃ binding, grants.bindings.get? (ownerName .organization X) = some binding ∧
      binding.role = ownerName .organization X ∧ founder X = some binding.subject

namespace Corresponds

variable {organizations : SortedMap String Entry} {grants : GrantTable}
  {founder : String → Option String}

/-- A collection without organizations, and a table without owner grants. -/
theorem empty (hFree : ∀ X, grants.roles.get? (ownerName .organization X) = none ∧
    grants.bindings.get? (ownerName .organization X) = none) :
    Corresponds ∅ grants founder where
  named X entry hGet := by cases hGet
  injective X Y hX := by cases hX
  role_iff Z := by simp [SortedMap.contains_iff, (hFree Z).1]
  binding_iff Z := by simp [SortedMap.contains_iff, (hFree Z).2]
  role X hX := by cases hX
  binding X hX := by cases hX

variable (h : Corresponds organizations grants founder)

include h

/-- Only grants under the names of owner grants count. -/
theorem congr_grants {others : GrantTable}
    (hSame : ∀ X, others.roles.get? (ownerName .organization X) =
        grants.roles.get? (ownerName .organization X) ∧
      others.bindings.get? (ownerName .organization X) =
        grants.bindings.get? (ownerName .organization X)) :
    Corresponds organizations others founder where
  named := h.named
  injective := h.injective
  role_iff Z := by
    rw [SortedMap.contains_iff, (hSame Z).1, ← SortedMap.contains_iff]
    exact h.role_iff Z
  binding_iff Z := by
    rw [SortedMap.contains_iff, (hSame Z).2, ← SortedMap.contains_iff]
    exact h.binding_iff Z
  role X hX := by
    rw [(hSame X).1]
    exact h.role X hX
  binding X hX := by
    rw [(hSame X).2]
    exact h.binding X hX

theorem replace {name : String} {old new : Entry} (hStored : organizations.get? name = some old)
    (hName : new.name = old.name) : Corresponds (organizations.insert name new) grants founder := by
  have hContains : ∀ X, (organizations.insert name new).contains X = true ↔
      organizations.contains X = true := by
    intro X
    rw [SortedMap.contains_insert_iff, or_iff_right_iff_imp]
    rintro rfl
    exact SortedMap.contains_iff.2 ⟨old, hStored⟩
  constructor
  case named =>
    intro X entry hGet
    by_cases hX : X = name
    · subst hX
      obtain rfl : new = entry := by simpa using hGet
      rw [hName]
      exact h.named X old hStored
    · rw [SortedMap.get?_insert_of_ne hX] at hGet
      exact h.named X entry hGet
  all_goals simp only [hContains]
  case injective => exact h.injective
  case role_iff => exact h.role_iff
  case binding_iff => exact h.binding_iff
  case role => exact h.role
  case binding => exact h.binding

/-- An organization whose grants are not there yet shares its names with no stored one. -/
theorem ownerName_ne {name X : String}
    (hRole : grants.roles.get? (ownerName .organization name) = none)
    (hX : organizations.contains X = true) :
    ownerName .organization X ≠ ownerName .organization name := by
  intro hEq
  have hContains := (h.role_iff name).2 ⟨X, hX, hEq⟩
  rw [SortedMap.contains_eq_false_iff.2 hRole] at hContains
  cases hContains

theorem create {name creator : String} {time : Time} {new : Entry}
    (hAbsent : organizations.get? name = none) (hName : new.name = name)
    (hRole : grants.roles.get? (ownerName .organization name) = none) :
    Corresponds (organizations.insert name new) (grants.withOwner .organization name creator time)
      (Register.setFounder founder name (some creator)) := by
  have hOther : ∀ X, organizations.contains X = true → X ≠ name := by
    rintro X hX rfl
    rw [SortedMap.contains_eq_false_iff.2 hAbsent] at hX
    cases hX
  have hApart : ∀ X, organizations.contains X = true →
      ownerName .organization X ≠ ownerName .organization name := fun X hX =>
    h.ownerName_ne hRole hX
  have hSomeone : ∀ Z, (∃ X, (organizations.insert name new).contains X = true ∧
      ownerName .organization X = ownerName .organization Z) ↔
      ownerName .organization Z = ownerName .organization name ∨
        ∃ X, organizations.contains X = true ∧
          ownerName .organization X = ownerName .organization Z := by
    intro Z
    simp only [SortedMap.contains_insert_iff, or_and_right, exists_or, exists_eq_left]
    rw [eq_comm]
  constructor
  case named =>
    intro X entry hGet
    by_cases hX : X = name
    · subst hX
      obtain rfl : new = entry := by simpa using hGet
      exact hName
    · rw [SortedMap.get?_insert_of_ne hX] at hGet
      exact h.named X entry hGet
  case injective =>
    intro X Y hX hY hEq
    rw [SortedMap.contains_insert_iff] at hX hY
    rcases hX with rfl | hX <;> rcases hY with rfl | hY
    · rfl
    · exact absurd hEq.symm (hApart Y hY)
    · exact absurd hEq (hApart X hX)
    · exact h.injective X Y hX hY hEq
  case role_iff =>
    intro Z
    rw [hSomeone, GrantTable.withOwner, SortedMap.contains_insert_iff, h.role_iff]
  case binding_iff =>
    intro Z
    rw [hSomeone, GrantTable.withOwner, SortedMap.contains_insert_iff, h.binding_iff]
  case role =>
    intro X hX
    rcases SortedMap.contains_insert_iff.1 hX with rfl | hX
    · exact ⟨_, SortedMap.get?_insert_self, rfl⟩
    · rw [GrantTable.withOwner, SortedMap.get?_insert_of_ne (hApart X hX)]
      exact h.role X hX
  case binding =>
    intro X hX
    rcases SortedMap.contains_insert_iff.1 hX with rfl | hX
    · exact ⟨_, SortedMap.get?_insert_self, rfl, if_pos rfl⟩
    · rw [GrantTable.withOwner, SortedMap.get?_insert_of_ne (hApart X hX), Register.setFounder,
        if_neg (hOther X hX)]
      exact h.binding X hX

theorem delete {name : String} (hStored : organizations.contains name = true) :
    Corresponds (organizations.erase name) (grants.withoutOwner .organization name)
      (Register.setFounder founder name none) := by
  have hApart : ∀ X, organizations.contains X = true → X ≠ name →
      ownerName .organization X ≠ ownerName .organization name := fun X hX hNe hEq =>
    hNe (h.injective X name hX hStored hEq)
  have hSomeone : ∀ Z, (∃ X, (organizations.erase name).contains X = true ∧
      ownerName .organization X = ownerName .organization Z) ↔
      ownerName .organization Z ≠ ownerName .organization name ∧
        ∃ X, organizations.contains X = true ∧
          ownerName .organization X = ownerName .organization Z := by
    intro Z
    simp only [SortedMap.contains_erase_iff]
    constructor
    · rintro ⟨X, ⟨hNe, hX⟩, hEq⟩
      exact ⟨hEq ▸ hApart X hX hNe, X, hX, hEq⟩
    · rintro ⟨hNe, X, hX, hEq⟩
      refine ⟨X, ⟨?_, hX⟩, hEq⟩
      rintro rfl
      exact hNe hEq.symm
  constructor
  case named =>
    intro X entry hGet
    by_cases hX : X = name
    · rw [hX, SortedMap.get?_erase_self] at hGet
      cases hGet
    · rw [SortedMap.get?_erase_of_ne hX] at hGet
      exact h.named X entry hGet
  case injective =>
    intro X Y hX hY hEq
    rw [SortedMap.contains_erase_iff] at hX hY
    exact h.injective X Y hX.2 hY.2 hEq
  case role_iff =>
    intro Z
    rw [hSomeone, GrantTable.withoutOwner, SortedMap.contains_erase_iff, h.role_iff]
  case binding_iff =>
    intro Z
    rw [hSomeone, GrantTable.withoutOwner, SortedMap.contains_erase_iff, h.binding_iff]
  case role =>
    intro X hX
    obtain ⟨hNe, hX⟩ := SortedMap.contains_erase_iff.1 hX
    rw [GrantTable.withoutOwner, SortedMap.get?_erase_of_ne (hApart X hX hNe)]
    exact h.role X hX
  case binding =>
    intro X hX
    obtain ⟨hNe, hX⟩ := SortedMap.contains_erase_iff.1 hX
    rw [GrantTable.withoutOwner, SortedMap.get?_erase_of_ne (hApart X hX hNe), Register.setFounder,
      if_neg hNe]
    exact h.binding X hX

end Corresponds

/-! ## Runs -/

/-- A direct write leaves organizations alone, and all grants of other names. -/
theorem GrantWrite.spares (w : GrantWrite) (st : ApiState) {name : String} (hName : w.name ≠ name) :
    let st' := (runOn (w.run (GrantTable.grants ApiState.table.cell)) st).2
    st'.organizations = st.organizations ∧
      st'.grants.roles.get? name = st.grants.roles.get? name ∧
      st'.grants.bindings.get? name = st.grants.bindings.get? name := by
  cases w with
  | createRole role =>
    have hNe : name ≠ role.name := Ne.symm hName
    simp only [run, GrantTable.grants, bind_pure_comp, runOn_map, runOn_cell,
      GrantTable.runOn_createRole]
    split <;> simp [SortedMap.get?_insert_of_ne hNe]
  | deleteRole other =>
    have hNe : name ≠ other := Ne.symm hName
    simp only [run, GrantTable.grants, runOn_cell, GrantTable.runOn_deleteRole]
    split <;> simp [SortedMap.get?_erase_of_ne hNe]
  | createBinding binding =>
    have hNe : name ≠ binding.name := Ne.symm hName
    simp only [run, GrantTable.grants, bind_pure_comp, runOn_map, runOn_cell,
      GrantTable.runOn_createBinding]
    split <;> simp [SortedMap.get?_insert_of_ne hNe]
  | deleteBinding other =>
    have hNe : name ≠ other := Ne.symm hName
    simp only [run, GrantTable.grants, runOn_cell, GrantTable.runOn_deleteBinding]
    split <;> simp [SortedMap.get?_erase_of_ne hNe]

namespace Register

/-- Organizations and owner grants of the register go together, and so do the founders. -/
def Agrees (g : Register) : Prop :=
  Corresponds g.state.organizations g.state.grants g.founder

variable {config : StoreConfig} {g : Register}

theorem agrees_write (h : g.Agrees) (call : Call) {w : Write ApiState Organization}
    (hStores : w.Stores ApiState.Readable) : (g.step config (.write call w)).Agrees := by
  have hOutcome := ApiState.write_outcome config call hStores g.state
  simp only [step]
  revert hOutcome
  generalize runOn (w.run (ResourceApi.inMemory config).organizations call) g.state = outcome
  rintro (⟨e, st, hEntries, hGrants⟩ | ⟨r, st, name, old, new, hStored, hName, hEntries, hGrants⟩ |
    ⟨r, st, new, hAbsent, hName, hRole, -, hEntries, hGrants⟩)
  · simp only [Agrees, hEntries, hGrants]
    exact h
  · simp only [Agrees, hEntries, hGrants]
    exact h.replace hStored hName
  · simp only [Agrees, hEntries, hGrants]
    exact h.create hAbsent hName hRole

/-- A deletion that succeeds is that of a stored organization of the name. -/
theorem removed_of_delete (h : g.Agrees) {call : Call} {name : String}
    {r : Resource Organization} {removed : Bool} {st : ApiState}
    (hRun : runOn ((ResourceApi.inMemory config).organizations.delete call name) g.state =
      (.ok (r, removed), st)) :
    g.state.organizations.contains name = true ∧ r.name = name ∧
      st.organizations = g.state.organizations.erase name ∧
      st.grants = g.state.grants.withoutOwner .organization name := by
  have hOutcome := ApiState.delete_outcome config call name g.state
  rw [hRun] at hOutcome
  cases hOutcome with
  | removed r st old hStored hName hEntries hGrants =>
    rw [h.named name old hStored] at hName
    rw [hName] at hGrants
    exact ⟨SortedMap.contains_iff.2 ⟨old, hStored⟩, hName, hEntries, hGrants⟩

theorem agrees_delete (h : g.Agrees) (call : Call) (name : String) :
    (g.step config (.delete call name)).Agrees := by
  simp only [step]
  split
  · rename_i r removed st hRun
    obtain ⟨hStored, hName, hEntries, hGrants⟩ := removed_of_delete h hRun
    simp only [Agrees, hEntries, hGrants, hName]
    exact h.delete hStored
  · rename_i e st hRun
    have hOutcome := ApiState.delete_outcome config call name g.state
    rw [hRun] at hOutcome
    cases hOutcome with
    | refused e => exact h

theorem agrees_grant (h : g.Agrees) {w : GrantWrite}
    (hName : ∀ X, w.name ≠ ownerName .organization X) :
    (g.step config (.grant w)).Agrees := by
  have hSpares := fun X => w.spares g.state (hName X)
  simp only [step, Agrees, (hSpares "").1]
  exact h.congr_grants fun X => (hSpares X).2

theorem agrees_step (h : g.Agrees) {step : Step} (hStep : step.IsAdmissible) :
    (g.step config step).Agrees := by
  cases hStep with
  | write call hStores => exact agrees_write h call hStores
  | delete call name => exact agrees_delete h call name
  | grant hName => exact agrees_grant h hName

theorem agrees_run (h : g.Agrees) {steps : List Step}
    (hSteps : ∀ step ∈ steps, step.IsAdmissible) : (g.run config steps).Agrees := by
  induction steps generalizing g with
  | nil => exact h
  | cons step steps ih =>
    obtain ⟨hStep, hRest⟩ := List.forall_mem_cons.1 hSteps
    exact ih (agrees_step h hStep) hRest

end Register

/-- Start with a table without owner grants of organizations, and let organizations be created,
updated and deleted and other grants be written in any order.  Then organizations and owner grants
correspond; a creation or an update that fails leaves both as they were, and a deletion that
succeeds takes away one organization and its two grants, which were there. -/
theorem owner_grants_correspond (config : StoreConfig) (grants : GrantTable)
    (hFree : ∀ X, grants.roles.get? (ownerName .organization X) = none ∧
      grants.bindings.get? (ownerName .organization X) = none)
    (steps : List Step) (hSteps : ∀ step ∈ steps, step.IsAdmissible) :
    let g := (Register.fresh config grants).run config steps
    let api := (ResourceApi.inMemory config).organizations
    Corresponds g.state.organizations g.state.grants g.founder ∧
    (∀ call (w : Write ApiState Organization), w.Stores ApiState.Readable → ∀ e st,
      runOn (w.run api call) g.state = (.error e, st) →
        st.organizations = g.state.organizations ∧ st.grants = g.state.grants) ∧
    ∀ call name r removed st, runOn (api.delete call name) g.state = (.ok (r, removed), st) →
      g.state.organizations.contains name = true ∧ r.name = name ∧
        st.organizations = g.state.organizations.erase name ∧
        st.grants = g.state.grants.withoutOwner .organization name := by
  intro g api
  have hAgrees : g.Agrees := by
    refine Register.agrees_run ?_ hSteps
    exact Corresponds.empty hFree
  refine ⟨hAgrees, ?_, fun call name r removed st hRun => Register.removed_of_delete hAgrees hRun⟩
  intro call w hStores e st hRun
  have hOutcome := ApiState.write_outcome config call hStores g.state
  rw [hRun] at hOutcome
  cases hOutcome with
  | refused e st hEntries hGrants => exact ⟨hEntries, hGrants⟩

theorem head?_ownerName (X : String) : (ownerName .organization X).toList.head? = some 'o' := by
  have hNatural : ∃ cs, (naturalGrantName .organization X ownerSuffix).toList = 'o' :: cs :=
    ⟨_, by simp only [naturalGrantName, Collection.text, String.toList_append]; rfl⟩
  obtain ⟨cs, hNatural⟩ := hNatural
  simp only [ownerName, grantObjectName]
  split
  · rw [hNatural]
    rfl
  · simp only [shortenedName, clipBytes, hNatural, String.toList_append, String.toList_ofList]
    rfl

def Call.bySuperuser (name uid : String) : Call := ⟨⟨name, ["root"]⟩, ⟨0, 0⟩, uid, "abcde"⟩

/-- One organization is created and deleted again, another comes from an update, and an auditor's
role is written past both. -/
def Step.foundings : List Step := [
  .write (.bySuperuser "alice" "1") (.create (.named "acme" (.new "Acme" "alice"))),
  .write (.bySuperuser "bob" "2")
    (.update "globex" (.ofFunction fun _ => .ok (.new "Globex" "bob")) true),
  .grant (.deleteRole "auditor"),
  .delete (.bySuperuser "alice" "3") "acme"]

def Register.founded : Register := (Register.fresh {} (.empty ["root"])).run {} Step.foundings

set_option maxRecDepth 2000 in
theorem owner_grants_correspond_foundings :
    (∀ X, (GrantTable.empty ["root"]).roles.get? (ownerName .organization X) = none ∧
      (GrantTable.empty ["root"]).bindings.get? (ownerName .organization X) = none) ∧
    (∀ step ∈ Step.foundings, step.IsAdmissible) ∧
    Register.founded.state.organizations.keys = ["globex"] ∧
    Register.founded.Agrees ∧
    ∃ binding, Register.founded.state.grants.bindings.get? "organizations-globex-owner" =
      some binding ∧ binding.subject = "bob" := by
  have hFree : ∀ X, (GrantTable.empty ["root"]).roles.get? (ownerName .organization X) = none ∧
      (GrantTable.empty ["root"]).bindings.get? (ownerName .organization X) = none :=
    fun _ => ⟨rfl, rfl⟩
  have hSteps : ∀ step ∈ Step.foundings, step.IsAdmissible := by
    simp only [Step.foundings, List.forall_mem_cons]
    refine ⟨.write _ (.create _ ?_), .write _ (.update _ _ _ ?_), .grant fun X => ?_, .delete _ _,
      List.forall_mem_nil _⟩
    · rintro bytes ⟨⟩
      rfl
    · rintro old payload ⟨⟩ bytes ⟨⟩
      rfl
    · intro hName
      have hHead := head?_ownerName X
      rw [← hName] at hHead
      exact absurd hHead (by decide)
  have hAgrees : Register.founded.Agrees :=
    (owner_grants_correspond {} (.empty ["root"]) hFree Step.foundings hSteps).1
  obtain ⟨binding, hGet, -, hFounder⟩ := hAgrees.binding "globex" (by decide +kernel)
  have hBob : Register.founded.founder "globex" = some "bob" := by decide +kernel
  have hSubject : some binding.subject = some "bob" := hFounder.symm.trans hBob
  exact ⟨hFree, hSteps, by decide +kernel, hAgrees, binding, hGet, Option.some.inj hSubject⟩

end Tenancy
