import Tenancy.Proofs.Access.Decision
import Tenancy.Proofs.Organization.OwnerGrants
import Tenancy.Proofs.Store.Compensation
import Tenancy.Proofs.Store.Request

/-!
# What a founder may do

A call that creates an organization makes two grants, and these change the decisions of the table
for one organization only: whoever the owner binding applies to may do everything to it.  The
binding has the name of the actor as its subject, so it applies to the actor, unless the name reads
as a group; then it applies to the members of the group.

* `GrantTable.decide_withOwner`: the decisions after owner grants have been made.
* `founder_gains_organization`: they are those after every call that creates an organization.
* `group_actor_founds_for_others`: an actor with the name of a group loses what it has founded.
-/

namespace Tenancy

variable {σ α ν : Type}

/-! ## Decisions after owner grants -/

namespace GrantTable

variable {t : GrantTable} {collection : Collection} {name creator : String} {time : Time}

/-- Bindings to other roles give what they gave. -/
theorem gives_withOwner_of_ne {b : RoleBinding} (hOther : b.role ≠ ownerName collection name)
    {actor : Actor} {required : Permission} :
    (t.withOwner collection name creator time).Gives b actor required ↔
      t.Gives b actor required := by
  rw [Gives, Gives, withOwner, SortedMap.get?_insert_of_ne hOther]

/-- The owner binding gives everything that is asked about the resource. -/
theorem gives_ownerBinding {q : AccessRequest} :
    (t.withOwner collection name creator time).Gives (ownerBinding collection name creator time)
        q.actor q.required ↔
      (ownerBinding collection name creator time).appliesTo q.actor = true ∧
        q.coordinates = ⟨collection, some name⟩ := by
  have hRole : (t.withOwner collection name creator time).roles.get?
      (ownerBinding collection name creator time).role =
      some (ownerRole collection name time) := SortedMap.get?_insert_self
  rw [Gives, hRole]
  refine and_congr_right fun _ => ?_
  simp only [Option.some_inj, exists_eq_left', ownerRole, ownerPermissions,
    PermissionSet.has_singleton, Permission.named_all_covers_iff, AccessRequest.required]
  rcases q.coordinates with ⟨other, given⟩
  simp

variable (creator time) in
theorem decide_withOwner (hBinding : t.bindings.get? (ownerName collection name) = none)
    (hFree : ∀ b ∈ t.bindings.values, b.role ≠ ownerName collection name) (q : AccessRequest) :
    (t.withOwner collection name creator time).decide q =
      if (ownerBinding collection name creator time).appliesTo q.actor = true ∧
          q.coordinates = ⟨collection, some name⟩ then .allow
      else t.decide q := by
  have hAllow : (t.withOwner collection name creator time).decide q = .allow ↔
      ((ownerBinding collection name creator time).appliesTo q.actor = true ∧
        q.coordinates = ⟨collection, some name⟩) ∨ t.decide q = .allow := by
    have hValues : ∀ b, b ∈ (t.withOwner collection name creator time).bindings.values ↔
        b = ownerBinding collection name creator time ∨ b ∈ t.bindings.values := fun b =>
      SortedMap.mem_values_insert hBinding
    have hOld : (∃ b ∈ t.bindings.values,
        (t.withOwner collection name creator time).Gives b q.actor q.required) ↔
        ∃ b ∈ t.bindings.values, t.Gives b q.actor q.required :=
      exists_congr fun b => and_congr_right fun hMem => gives_withOwner_of_ne (hFree b hMem)
    have hSuper : (t.withOwner collection name creator time).IsSuperuser q.actor ↔
        t.IsSuperuser q.actor := Iff.rfl
    rw [decide_eq_allow_iff, decide_eq_allow_iff, hSuper]
    simp only [hValues, or_and_right, exists_or, exists_eq_left, gives_ownerBinding, hOld]
    exact or_left_comm
  split
  · rename_i hOwner
    exact hAllow.2 (.inl hOwner)
  · rename_i hOther
    exact decide_congr (hAllow.trans (or_iff_right hOther))

end GrantTable

/-! ## Calls that create -/

/-- The mutation of the write, if it has one, leaves a part of the state alone. -/
def Write.Spares (view : σ → ν) : Write σ α → Prop
  | .create _ => True
  | .update _ mutate _ => ∀ old, Tenancy.Spares view (mutate old)

namespace BlobStore

variable {s : BlobStore (StateM σ) α} {p : Part σ MemoryContainer} {view : σ → ν} {call : Call}
  {st t : σ} {r : Resource α} (hContainer : s.container = MemoryContainer.container p.cell)
  (hOutside : ∀ c st, view (p.write c st) = view st)

include hContainer hOutside

theorem createEntry_succeeds {birth : Birth} {name : String} {payload : α}
    (hRun : runOn (s.createEntry birth name payload) st = (.ok r, t)) :
    r.name = name ∧ view t = view st := by
  rw [runOn_createEntry hContainer] at hRun
  cases hBytes : s.write payload with
  | error e => simp [hBytes] at hRun
  | ok bytes =>
    simp only [hBytes] at hRun
    split at hRun
    · cases hRun
    · obtain ⟨hRead, rfl⟩ := Prod.mk.inj hRun
      exact ⟨read_name hRead, hOutside _ _⟩

theorem create_succeeds (hSupported : s.capabilities.supports .create = true)
    {resource : Resource α} (hRun : runOn (s.create call resource) st = (.ok r, t)) :
    r.name = assignedName call resource.metadata ∧ view t = view st := by
  rw [runOn_create hSupported] at hRun
  cases hName : checkedName (assignedName call resource.metadata) with
  | error e => simp [hName] at hRun
  | ok _ =>
    simp only [hName] at hRun
    exact createEntry_succeeds hContainer hOutside hRun

theorem update_creates (hSupported : s.capabilities.supports .update = true) {name : String}
    {mutate : Mutation (StateM σ) α} {allowCreate : Bool}
    (hSpares : ∀ old, Spares view (mutate old))
    (hRun : runOn (s.update call name mutate allowCreate) st = (.ok (r, true), t)) :
    r.name = name ∧ view t = view st := by
  rw [runOn_update hContainer hSupported] at hRun
  cases hStored : (p.read st).entries.get? name with
  | some entry =>
    -- An update of a resource that is there does not say that it was created.
    simp only [hStored] at hRun
    cases hWas : s.read entry with
    | error e => simp [hWas] at hRun
    | ok was =>
      rcases hReplace : runOn (s.replace name was.payload mutate) st with ⟨e | new, u⟩ <;>
        simp [hWas, hReplace] at hRun
  | none =>
    simp only [hStored] at hRun
    split at hRun
    · cases hName : checkedName name with
      | error e => simp [hName] at hRun
      | ok _ =>
        have hSpared := hSpares none st
        rcases hMutate : runOn (mutate none) st with ⟨e | payload, u⟩
        · simp [hName, hMutate] at hRun
        · rcases hEntry : runOn (s.createEntry call.birth name payload) u with ⟨e | created, v⟩
          · simp [hName, hMutate, hEntry] at hRun
          · simp only [hName, hMutate, hEntry, map_ok, Prod.mk.injEq, Except.ok.injEq,
              and_true] at hRun
            obtain ⟨rfl, rfl⟩ := hRun
            obtain ⟨hCreated, hView⟩ := createEntry_succeeds hContainer hOutside hEntry
            rw [hMutate] at hSpared
            exact ⟨hCreated, hView.trans hSpared⟩
    · cases hRun

/-- What a write creates has the name that the write is about. -/
theorem write_creates {w : Write σ α} (hSpares : w.Spares view)
    (hRun : runOn (w.run s.store call) st = (.ok (r, true), t)) :
    r.name = (StoreRequest.write w).target call ∧ view t = view st := by
  cases hSupported : s.capabilities.supports (StoreRequest.write w).verb with
  | false =>
    have hRefused : runOn (w.run s.store call) st = _ := runOn_unsupported s hSupported call st
    rw [hRefused] at hRun
    cases hRun
  | true =>
    cases w with
    | create resource =>
      simp only [Write.run, store, runOn_map] at hRun
      rcases hCreate : runOn (s.create call resource) st with ⟨e | created, u⟩
      · simp [hCreate] at hRun
      · simp only [hCreate, map_ok, Prod.mk.injEq, Except.ok.injEq, and_true] at hRun
        obtain ⟨rfl, rfl⟩ := hRun
        exact create_succeeds hContainer hOutside hSupported hCreate
    | update name mutate allowCreate =>
      exact update_creates hContainer hOutside hSupported hSpares hRun

end BlobStore

namespace ApiState

/-- A write that creates an organization makes its owner grants, and no other. -/
theorem grants_of_creation (config : StoreConfig) {call : Call} {w : Write ApiState Organization}
    (hSpares : w.Spares grants) {st st' : ApiState} {r : Resource Organization}
    (hRun : runOn (w.run (ResourceApi.inMemory config).organizations call) st =
      (.ok (r, true), st')) :
    r.name = (StoreRequest.write w).target call ∧
      st.grants.bindings.get? (ownerName .organization r.name) = none ∧
      st'.grants = st.grants.withOwner .organization r.name call.actor.name call.time := by
  have hGuarded := Store.authorized_write (GrantTable.isPassive_authorizer table) w
    ((organizationStore config).store.provisioned (ownerEffects table .organization))
    config.watchBufferSize call st
  rw [← inMemory_organizations, hRun] at hGuarded
  generalize hEnd : (Except.ok (r, true), st') = ending at hGuarded
  cases hGuarded with
  | refused e => cases hEnd
  | passed =>
    rw [Store.run_provisioned] at hEnd
    rcases hInner : runOn (w.run (organizationStore config).store call) st with
      ⟨e | ⟨created, _ | _⟩, t⟩
    · simp [hInner] at hEnd
    · simp [hInner] at hEnd
    · simp only [hInner] at hEnd
      obtain ⟨hName, hGrants⟩ := BlobStore.write_creates (p := container .organization) rfl
        (fun _ _ => rfl) hSpares hInner
      rcases Store.provision_owner table .organization call created t
        (organizationStore config).store with ⟨-, hBinding, hProvision⟩ | ⟨e, hProvision⟩
      · simp only [hProvision, map_ok, Prod.mk.injEq, Except.ok.injEq, and_true] at hEnd
        obtain ⟨rfl, rfl⟩ := hEnd
        rw [table_read, hGrants] at hBinding
        exact ⟨hName, hBinding, by rw [grants_write_table, table_read, hGrants]⟩
      · simp [hProvision] at hEnd

end ApiState

/-- Let a call that may create succeed and create an organization, where no binding refers to the
name of its owner role.  If the name of the actor does not read as a group, the table allows
everything about the organization to whoever has this name, and decides every other request as it
did before.  If the name reads as a group, it is the members of the group who are allowed
everything instead. -/
theorem founder_gains_organization (config : StoreConfig) (call : Call)
    (w : Write ApiState Organization) (hSpares : w.Spares ApiState.grants) (st st' : ApiState)
    (r : Resource Organization)
    (hRun : runOn (w.run (ResourceApi.inMemory config).organizations call) st =
      (.ok (r, true), st'))
    (hFree : ∀ b ∈ st.grants.bindings.values, b.role ≠ ownerName .organization r.name) :
    let authorizer := GrantTable.authorizer ApiState.table.cell
    r.name = (StoreRequest.write w).target call ∧
    ((∀ group, call.actor.name ≠ groupSubject group) → ∀ q, runOn (authorizer q) st' =
      (if q.actor.name = call.actor.name ∧ q.coordinates = ⟨.organization, some r.name⟩ then
        .ok .allow else (runOn (authorizer q) st).1, st')) ∧
    ∀ group, call.actor.name = groupSubject group → ∀ q, runOn (authorizer q) st' =
      (if q.actor.isIn group = true ∧ q.coordinates = ⟨.organization, some r.name⟩ then
        .ok .allow else (runOn (authorizer q) st).1, st') := by
  intro authorizer
  obtain ⟨hName, hBinding, hGrants⟩ := ApiState.grants_of_creation config hSpares hRun
  have hDecide := GrantTable.decide_withOwner call.actor.name call.time hBinding hFree
  have hAnswer : ∀ q s, runOn (authorizer q) s = (.ok (s.grants.decide q), s) := fun _ _ => rfl
  let binding := ownerBinding .organization r.name call.actor.name call.time
  refine ⟨hName, fun hActor q => ?_, fun group hGroup q => ?_⟩
  · have hApplies : binding.appliesTo q.actor = true ↔ q.actor.name = call.actor.name :=
      RoleBinding.appliesTo_actor hActor
    simp only [hAnswer, hGrants, hDecide, hApplies, apply_ite Except.ok, binding]
  · have hApplies : binding.appliesTo q.actor = q.actor.isIn group :=
      RoleBinding.appliesTo_group hGroup
    simp only [hAnswer, hGrants, hDecide, hApplies, apply_ite Except.ok, binding]

/-! ## Founding an organization -/

def Write.acme : Write ApiState Organization := .create (.named "acme" (.new "Acme" "hq"))

/-- A table in which the members of "root" may do everything, and those of "audit" may see all
organizations. -/
def GrantTable.audited : GrantTable where
  roles := .ofList
    [("auditor", ⟨"auditor", .singleton (.global .organization .get), ⟨0, 0⟩⟩)]
  bindings := .ofList [("audit", ⟨"audit", "auditor", "group:audit", ⟨0, 0⟩⟩)]
  superusers := ["root"]

theorem founder_gains_organization_alice :
    let authorizer := GrantTable.authorizer ApiState.table.cell
    let before : ApiState := .fresh {} .audited
    let auditor : Actor := ⟨"bob", ["audit"]⟩
    ∃ r after, runOn (Write.acme.run (ResourceApi.inMemory {}).organizations
        (.bySuperuser "alice" "1")) before = (.ok (r, true), after) ∧
      Write.acme.Spares ApiState.grants ∧
      (∀ b ∈ before.grants.bindings.values, b.role ≠ ownerName .organization r.name) ∧
      (∀ group, "alice" ≠ groupSubject group) ∧
      (∀ verb, (runOn (authorizer (.forName ⟨"alice", []⟩ verb .organization "acme")) after).1 =
        .ok .allow) ∧
      (runOn (authorizer (.forName auditor .get .organization "acme")) after).1 = .ok .allow ∧
      (runOn (authorizer (.forName auditor .delete .organization "acme")) after).1 =
        .ok (.deny "no role bound to \"bob\" grants organizations:delete:acme") := by
  intro authorizer before auditor
  have hCreates : (runOn (Write.acme.run (ResourceApi.inMemory {}).organizations
      (.bySuperuser "alice" "1")) before).1.toOption.map Prod.snd = some true := by decide +kernel
  rcases hRun : runOn (Write.acme.run (ResourceApi.inMemory {}).organizations
    (.bySuperuser "alice" "1")) before with ⟨e | ⟨r, created⟩, after⟩
  · rw [hRun] at hCreates
    cases hCreates
  · rw [hRun] at hCreates
    obtain rfl : created = true := Option.some.inj hCreates
    have hFree : ∀ b ∈ before.grants.bindings.values, b.role ≠ ownerName .organization r.name := by
      have hRoles : ∀ b ∈ before.grants.bindings.values, b.role = "auditor" := by decide +kernel
      intro b hMem hOwner
      have hHead := head?_ownerName r.name
      rw [← hOwner, hRoles b hMem] at hHead
      exact absurd hHead (by decide)
    have hActor : ∀ group, "alice" ≠ groupSubject group := fun group hGroup => by
      have hNone : subjectGroup? "alice" = none := by decide
      rw [subjectGroup?_eq_some_iff.2 hGroup] at hNone
      cases hNone
    obtain ⟨hName, hAnswers, -⟩ := founder_gains_organization {} (.bySuperuser "alice" "1")
      Write.acme trivial before after r hRun hFree
    have hName : r.name = "acme" := hName
    rw [hName] at hAnswers
    have hAnswers := hAnswers hActor
    have hBob : auditor.name ≠ "alice" := by decide
    refine ⟨r, after, rfl, trivial, hFree, hActor, fun verb => ?_, ?_, ?_⟩
    · rw [hAnswers, if_pos ⟨rfl, rfl⟩]
    · rw [hAnswers, if_neg fun hOwner => hBob hOwner.1]
      dsimp only
      decide +kernel
    · rw [hAnswers, if_neg fun hOwner => hBob hOwner.1]
      dsimp only
      decide +kernel

/-- The actor is called "group:devs", so the owner binding is to the members of "devs": one of them
may delete the new organization, and the actor who has founded it may not. -/
theorem group_actor_founds_for_others :
    let before : ApiState := .fresh {} .audited
    let run := runOn (Write.acme.run (ResourceApi.inMemory {}).organizations
      (.bySuperuser "group:devs" "1")) before
    let deletion (actor : Actor) : AccessRequest := .forName actor .delete .organization "acme"
    let member : Actor := ⟨"bob", ["devs"]⟩
    run.1.toOption.map Prod.snd = some true ∧
    (∀ b ∈ before.grants.bindings.values, b.role ≠ ownerName .organization "acme") ∧
    (before.grants.decide (deletion member)).isAllowed = false ∧
    (run.2.grants.decide (deletion member)).isAllowed = true ∧
    (run.2.grants.decide (deletion ⟨"group:devs", []⟩)).isAllowed = false := by
  decide +kernel

end Tenancy
