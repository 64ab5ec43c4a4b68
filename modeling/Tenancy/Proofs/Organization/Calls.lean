import Tenancy.Organization.InMemory
import Tenancy.Proofs.Organization.OwnerEffects
import Tenancy.Proofs.Store.Rollback

/-!
# Calls to the organizations in memory

What a call to the organizations does to the two things that it is about: the entries of the
container of organizations, and the table of grants.

* `ApiState.write_outcome`, `ApiState.delete_outcome`: every call ends in one of the listed ways; in
  particular one that fails leaves both as they were.
-/

namespace Tenancy

namespace ApiState

def organizations (st : ApiState) : SortedMap String Entry := (st.containers .organization).entries

@[simp]
theorem organizations_read (st : ApiState) :
    ((container .organization).read st).entries = st.organizations := rfl

@[simp]
theorem organizations_write (c : MemoryContainer) (st : ApiState) :
    ((container .organization).write c st).organizations = c.entries := rfl

@[simp]
theorem grants_write_container (collection : Collection) (c : MemoryContainer) (st : ApiState) :
    ((container collection).write c st).grants = st.grants := rfl

@[simp]
theorem table_read (st : ApiState) : table.read st = st.grants := rfl

@[simp]
theorem organizations_write_table (t : GrantTable) (st : ApiState) :
    (table.write t st).organizations = st.organizations := rfl

@[simp]
theorem grants_write_table (t : GrantTable) (st : ApiState) : (table.write t st).grants = t := rfl

/-- The store of organizations without its decorators. -/
def organizationStore (config : StoreConfig) : BlobStore (StateM ApiState) Organization :=
  ⟨.organization, MemoryContainer.container (container .organization).cell,
    .json Organization.format, config, .all⟩

theorem inMemory_organizations (config : StoreConfig) :
    (ResourceApi.inMemory config).organizations =
      ((organizationStore config).store.provisioned (ownerEffects table .organization)).authorized
        (GrantTable.authorizer table.cell) config.watchBufferSize := rfl

inductive WriteOutcome (call : Call) (st : ApiState) :
    Except StoreError (Outcome Organization) × ApiState → Prop
  | refused (e : StoreError) (st' : ApiState) (hEntries : st'.organizations = st.organizations)
      (hGrants : st'.grants = st.grants) : WriteOutcome call st (.error e, st')
  | replaced (r : Resource Organization) (st' : ApiState) (name : String) (old new : Entry)
      (hStored : st.organizations.get? name = some old) (hName : new.name = old.name)
      (hEntries : st'.organizations = st.organizations.insert name new)
      (hGrants : st'.grants = st.grants) : WriteOutcome call st (.ok (r, false), st')
  | created (r : Resource Organization) (st' : ApiState) (new : Entry)
      (hAbsent : st.organizations.get? r.name = none) (hName : new.name = r.name)
      (hRole : st.grants.roles.get? (ownerName .organization r.name) = none)
      (hBinding : st.grants.bindings.get? (ownerName .organization r.name) = none)
      (hEntries : st'.organizations = st.organizations.insert r.name new)
      (hGrants : st'.grants =
        st.grants.withOwner .organization r.name call.actor.name call.time) :
      WriteOutcome call st (.ok (r, true), st')

inductive DeleteOutcome (name : String) (st : ApiState) :
    Except StoreError (Outcome Organization) × ApiState → Prop
  | refused (e : StoreError) : DeleteOutcome name st (.error e, st)
  | removed (r : Resource Organization) (st' : ApiState) (old : Entry)
      (hStored : st.organizations.get? name = some old) (hName : r.name = old.name)
      (hEntries : st'.organizations = st.organizations.erase name)
      (hGrants : st'.grants = st.grants.withoutOwner .organization r.name) :
      DeleteOutcome name st (.ok (r, true), st')

/-- The payload is read back as it was written. -/
def Readable (payload : Organization) : Prop :=
  (Codec.json Organization.format).RoundTrips payload

/-- The provisioning of an organization that has been stored: the grants are made, or the entry is
taken out again. -/
theorem created_outcome (config : StoreConfig) (call : Call) {name : String}
    {payload : Organization} {bytes : Bytes} {st : ApiState}
    (hAbsent : st.organizations.get? name = none)
    (hRead : (organizationStore config).read
      (((container .organization).read st).newEntry call.birth name bytes) =
      .ok ⟨BlobStore.metadataOf
        (((container .organization).read st).newEntry call.birth name bytes), payload⟩) :
    let c := (container .organization).read st
    let r : Resource Organization :=
      ⟨BlobStore.metadataOf (c.newEntry call.birth name bytes), payload⟩
    let provisioning := runOn (Store.provision (organizationStore config).store call r []
      (ownerEffects table .organization))
      ((container .organization).write (c.afterCreate call.birth name bytes) st)
    WriteOutcome call st (provisioning.1.map fun _ => (r, true), provisioning.2) := by
  intro c r provisioning
  let stored := (container .organization).write (c.afterCreate call.birth name bytes) st
  rcases Store.provision_owner table .organization call r stored
    (organizationStore config).store with ⟨hRole, hBinding, hRun⟩ | ⟨e, hRun⟩
  · simp only [provisioning, stored, hRun, map_ok]
    exact .created r _ (c.newEntry call.birth name bytes) hAbsent rfl hRole hBinding rfl rfl
  · have hStored : stored.organizations.get? name = some (c.newEntry call.birth name bytes) :=
      SortedMap.get?_insert_self
    have hDelete : runOn ((organizationStore config).store.delete call r.name) stored = _ :=
      BlobStore.runOn_delete_of_readable rfl rfl stored hStored hRead
    simp only [provisioning, stored, hRun, map_error]
    rw [hDelete]
    refine .refused e _ ?_ rfl
    exact SortedMap.erase_insert hAbsent

theorem write_outcome (config : StoreConfig) (call : Call) {w : Write ApiState Organization}
    (hStores : w.Stores Readable) (st : ApiState) :
    WriteOutcome call st
      (runOn (w.run (ResourceApi.inMemory config).organizations call) st) := by
  have hInner := BlobStore.write_outcome (s := organizationStore config)
    (p := container .organization) rfl hStores call st
  have hGuarded := Store.authorized_write (GrantTable.isPassive_authorizer table) w
    ((organizationStore config).store.provisioned (ownerEffects table .organization))
    config.watchBufferSize call st
  rw [inMemory_organizations]
  revert hGuarded
  generalize runOn (w.run (Store.authorized _ _ _) call) st = outcome
  rintro (e | _)
  · exact .refused e st rfl rfl
  · rw [Store.run_provisioned]
    revert hInner
    generalize runOn (w.run (organizationStore config).store call) st = inner
    rintro (e | ⟨name, old, payload, bytes, hStored⟩ | ⟨name, payload, bytes, hAbsent, hRead⟩)
    · exact .refused e st rfl rfl
    · exact .replaced _ _ name old (((container .organization).read st).patchedEntry old bytes)
        hStored rfl rfl rfl
    · dsimp only
      exact created_outcome config call hAbsent hRead

theorem delete_outcome (config : StoreConfig) (call : Call) (name : String) (st : ApiState) :
    DeleteOutcome name st
      (runOn ((ResourceApi.inMemory config).organizations.delete call name) st) := by
  have hInner : (organizationStore config).DeleteOutcome (container .organization) name st
      (runOn ((organizationStore config).store.delete call name) st) :=
    BlobStore.delete_outcome rfl name st
  have hGuarded := Store.authorized_delete (GrantTable.isPassive_authorizer table)
    ((organizationStore config).store.provisioned (ownerEffects table .organization))
    config.watchBufferSize call name st
  rw [inMemory_organizations]
  revert hGuarded
  generalize runOn ((Store.authorized _ _ _).delete call name) st = outcome
  rintro (e | _)
  · exact .refused e
  · simp only [Store.provisioned, runOn_bind]
    revert hInner
    generalize runOn ((organizationStore config).store.delete call name) st = inner
    rintro (e | ⟨old, was, hStored, hWas⟩)
    · exact .refused e
    · obtain ⟨payload, -, rfl⟩ := BlobStore.read_eq_ok_iff.1 hWas
      simp only [runOn_lift, Store.undo_owner, runOn_pure]
      exact .removed _ _ old hStored rfl rfl rfl

end ApiState

end Tenancy
