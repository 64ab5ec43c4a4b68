import Tenancy.Proofs.Organization.Acceptance
import Tenancy.Proofs.Store.Rewriting

/-!
# Runs of the API

Everything that can happen to the API in memory, in one type: requests to the four collections,
acceptances of invitations, direct writes of grants, and what open watches do.  A request to one
collection leaves the containers of the others alone.

* `ApiStep.invitations_after`, `ApiStep.memberships_after`: what a step makes of invitations and of
  memberships.
* `ApiState.readsInvitations_run`: whatever has happened, every stored invitation can be read.
-/

namespace Tenancy

/-! ## Requests to one collection -/

namespace ApiState

def billingAccountStore (config : StoreConfig) : BlobStore (StateM ApiState) BillingAccount :=
  ⟨.billingAccount, MemoryContainer.container (container .billingAccount).cell,
    .json BillingAccount.format, config, .all⟩

/-- The containers of all other collections are the same. -/
def SameBeside (collection : Collection) (st st' : ApiState) : Prop :=
  ∀ other, other ≠ collection → st'.containers other = st.containers other

namespace SameBeside

variable {collection : Collection} {st st' st'' : ApiState}

theorem refl (st : ApiState) : SameBeside collection st st := fun _ _ => rfl

theorem trans (h : SameBeside collection st st') (h' : SameBeside collection st' st'') :
    SameBeside collection st st'' := fun other hNe => (h' other hNe).trans (h other hNe)

theorem write (c : MemoryContainer) (st : ApiState) :
    SameBeside collection st ((container collection).write c st) := fun _ hNe => if_neg hNe

theorem write_table (t : GrantTable) (st : ApiState) :
    SameBeside collection st (table.write t st) := fun _ _ => rfl

end SameBeside

variable (config : StoreConfig) {α : Type} {rel : Option α → α → Prop}

/-- A request to a plain store behind the authorizer. -/
theorem rewrites_authorized {s : BlobStore (StateM ApiState) α} {collection : Collection}
    (hContainer : s.container = MemoryContainer.container (container collection).cell)
    (call : Call) {q : CollectionRequest ApiState α} (hStores : q.Stores rel) (st : ApiState) :
    s.Rewrites (container collection) rel (q.written? call) st
      (runOn (q.run (s.store.authorized (GrantTable.authorizer table.cell)
        config.watchBufferSize) call) st).2 := by
  rcases Store.authorized_state (GrantTable.isPassive_authorizer table) s.store
    config.watchBufferSize call q st with hSame | hSame
  · rw [hSame]
    exact BlobStore.rewrites_nothing _ st
  · rw [hSame]
    exact BlobStore.rewrites_request hContainer call hStores st

theorem rewrites_billingAccounts (call : Call)
    {rel : Option BillingAccount → BillingAccount → Prop}
    {q : CollectionRequest ApiState BillingAccount} (hStores : q.Stores rel) (st : ApiState) :
    (billingAccountStore config).Rewrites (container .billingAccount) rel (q.written? call) st
      (runOn (q.run (ResourceApi.inMemory config).billingAccounts call) st).2 :=
  rewrites_authorized config rfl call hStores st

theorem rewrites_memberships (call : Call) {rel : Option Membership → Membership → Prop}
    {q : CollectionRequest ApiState Membership} (hStores : q.Stores rel) (st : ApiState) :
    (membershipStore config).Rewrites (container .membership) rel (q.written? call) st
      (runOn (q.run (ResourceApi.inMemory config).memberships call) st).2 :=
  rewrites_authorized config rfl call hStores st

theorem rewrites_invitations (call : Call) {rel : Option Invitation → Invitation → Prop}
    {q : CollectionRequest ApiState Invitation} (hStores : q.Stores rel) (st : ApiState) :
    (invitationStore config).Rewrites (container .invitation) rel (q.written? call) st
      (runOn (q.run (ResourceApi.inMemory config).invitations call) st).2 :=
  rewrites_authorized config rfl call hStores st

theorem sameBeside_of_rewrites {s : BlobStore (StateM ApiState) α} {collection : Collection}
    {written : Option String} {st st' : ApiState}
    (h : s.Rewrites (container collection) rel written st st') : SameBeside collection st st' := by
  obtain ⟨c, rfl, -⟩ := h
  exact .write c st

section

variable {rel : Option Organization → Organization → Prop} (call : Call)

theorem sameBeside_plain_organizations {q : CollectionRequest ApiState Organization}
    (hStores : q.Stores rel) (st : ApiState) :
    SameBeside .organization st (runOn (q.run (organizationStore config).store call) st).2 :=
  sameBeside_of_rewrites
    (BlobStore.rewrites_request (p := container .organization) rfl call hStores st)

theorem sameBeside_deletion (name : String) (st : ApiState) :
    SameBeside .organization st
      (runOn ((organizationStore config).store.delete call name) st).2 := by
  let delete : CollectionRequest ApiState Organization := .one (.delete name)
  have hStores : delete.Stores fun _ _ => True := trivial
  have hDelete := sameBeside_plain_organizations config call hStores st
  rwa [CollectionRequest.run, StoreRequest.run, runOn_map] at hDelete

theorem sameBeside_provisioned {q : CollectionRequest ApiState Organization}
    (hStores : q.Stores rel) (st : ApiState) :
    SameBeside .organization st (runOn (q.run ((organizationStore config).store.provisioned
      (ownerEffects table .organization)) call) st).2 := by
  have hPlain := sameBeside_plain_organizations config call hStores st
  match q with
  | .one (.get _) | .list _ | .watch _ => exact hPlain
  | .one (.write w) =>
    simp only [CollectionRequest.run, StoreRequest.run, runOn_map] at hPlain ⊢
    rw [Store.run_provisioned]
    rcases hRun : runOn (w.run (organizationStore config).store call) st with
      ⟨e | ⟨r, _ | _⟩, t⟩ <;> rw [hRun] at hPlain
    · exact hPlain
    · exact hPlain
    · rcases Store.provision_owner table .organization call r t
        (organizationStore config).store with ⟨-, -, hProvision⟩ | ⟨e, hProvision⟩
      · simp only [hProvision]
        exact hPlain.trans (.write_table _ t)
      · -- The grants could not be written, and the organization is deleted again.
        simp only [hProvision]
        exact hPlain.trans (sameBeside_deletion config call r.name t)
  | .one (.delete name) =>
    simp only [CollectionRequest.run, StoreRequest.run, runOn_map] at hPlain ⊢
    simp only [Store.provisioned, runOn_bind]
    rcases hRun : runOn ((organizationStore config).store.delete call name) st with ⟨e | o, t⟩ <;>
      rw [hRun] at hPlain
    · exact hPlain
    · simp only [runOn_lift, Store.undo_owner, runOn_pure]
      exact hPlain.trans (.write_table _ t)

/-- A request to organizations may write grants as well, but no other collection. -/
theorem sameBeside_organizations {q : CollectionRequest ApiState Organization}
    (hStores : q.Stores rel) (st : ApiState) :
    SameBeside .organization st
      (runOn (q.run (ResourceApi.inMemory config).organizations call) st).2 := by
  rw [inMemory_organizations]
  rcases Store.authorized_state (GrantTable.isPassive_authorizer table)
    ((organizationStore config).store.provisioned (ownerEffects table .organization))
    config.watchBufferSize call q st with hSame | hSame
  · rw [hSame]
    exact .refl st
  · rw [hSame]
    exact sameBeside_provisioned config call hStores st

end

/-- Accepting an invitation writes invitations and memberships only. -/
theorem sameBeside_accept (call : Call) (name : String) (st : ApiState) :
    ∃ mid, SameBeside .invitation st mid ∧ SameBeside .membership mid
      (runOn ((ResourceApi.inMemory config).acceptInvitation call name) st).2 := by
  let update : CollectionRequest ApiState Invitation :=
    .one (.write (.update name (ResourceApi.acceptance name call.time) false))
  have hStores : update.Stores fun _ _ => True := by
    intro old st
    refine ⟨?_, fun _ _ _ => trivial⟩
    cases old with
    | none => rfl
    | some i => rw [runOn_acceptance_some]
  have hFirst := sameBeside_of_rewrites (rewrites_invitations config call hStores st)
  simp only [update, CollectionRequest.run, StoreRequest.run, Write.run, runOn_map] at hFirst
  rw [ResourceApi.acceptInvitation, runOn_bind]
  rcases hRun : runOn ((ResourceApi.inMemory config).invitations.update call name
    (ResourceApi.acceptance name call.time) false) st with ⟨e | ⟨invitation, created⟩, mid⟩ <;>
    rw [hRun] at hFirst
  · exact ⟨mid, hFirst, .refl mid⟩
  · let s := invitation.payload.membershipFor call.actor.name call.time
    let create : CollectionRequest ApiState Membership :=
      .one (.write (.create (.named s.objectName s)))
    have hCreate : create.Stores fun _ _ => True := trivial
    have hSecond := sameBeside_of_rewrites (rewrites_memberships config call hCreate mid)
    simp only [create, CollectionRequest.run, StoreRequest.run, Write.run, runOn_map] at hSecond
    exact ⟨mid, hFirst, hSecond⟩

end ApiState

/-! ## Steps -/

inductive ApiStep where
  | organization (call : Call) (q : CollectionRequest ApiState Organization)
  | billingAccount (call : Call) (q : CollectionRequest ApiState BillingAccount)
  | membership (call : Call) (q : CollectionRequest ApiState Membership)
  | invitation (call : Call) (q : CollectionRequest ApiState Invitation)
  /-- The invitation of the name is accepted. -/
  | accept (call : Call) (name : String)
  /-- Grants are written directly. -/
  | grant (w : GrantWrite)
  /-- An open watch takes the next event of its feed. -/
  | receive (collection : Collection) (feed : Nat)
  /-- A watch is closed. -/
  | cancel (collection : Collection) (feed : Nat)

namespace ApiStep

/-- The clock shows times of the calendar, and so do the payloads of invitations and memberships
that are stored, if those that they replace do; mutations leave the state alone. -/
inductive IsSound : ApiStep → Prop
  | organization (call : Call) {q : CollectionRequest ApiState Organization}
      (hStores : q.Stores fun _ _ => True) : IsSound (.organization call q)
  | billingAccount (call : Call) {q : CollectionRequest ApiState BillingAccount}
      (hStores : q.Stores fun _ _ => True) : IsSound (.billingAccount call q)
  | membership (call : Call) {q : CollectionRequest ApiState Membership}
      (hStores : q.Stores (StaysFit Membership.Fits)) : IsSound (.membership call q)
  | invitation (call : Call) {q : CollectionRequest ApiState Invitation}
      (hStores : q.Stores (StaysFit Invitation.Fits)) : IsSound (.invitation call q)
  | accept {call : Call} (name : String) (hTime : call.time.IsValid) : IsSound (.accept call name)
  | grant (w : GrantWrite) : IsSound (.grant w)
  | receive (collection : Collection) (feed : Nat) : IsSound (.receive collection feed)
  | cancel (collection : Collection) (feed : Nat) : IsSound (.cancel collection feed)

/-- The step writes the invitation of the name in no other way than by accepting it. -/
def SparesInvitation (name : String) : ApiStep → Prop
  | .invitation call q => q.written? call ≠ some name
  | _ => True

def after (config : StoreConfig) (st : ApiState) : ApiStep → ApiState
  | .organization call q =>
    (runOn (q.run (ResourceApi.inMemory config).organizations call) st).2
  | .billingAccount call q =>
    (runOn (q.run (ResourceApi.inMemory config).billingAccounts call) st).2
  | .membership call q => (runOn (q.run (ResourceApi.inMemory config).memberships call) st).2
  | .invitation call q => (runOn (q.run (ResourceApi.inMemory config).invitations call) st).2
  | .accept call name => (runOn ((ResourceApi.inMemory config).acceptInvitation call name) st).2
  | .grant w => (runOn (w.run (GrantTable.grants ApiState.table.cell)) st).2
  | .receive collection feed =>
    let c := (ApiState.container collection).read st
    (ApiState.container collection).write ((MemoryContainer.receive feed).run c).2 st
  | .cancel collection feed =>
    let c := (ApiState.container collection).read st
    (ApiState.container collection).write ((MemoryContainer.closeFeed feed).run c).2 st

def run (config : StoreConfig) (steps : List ApiStep) (st : ApiState) : ApiState :=
  steps.foldl (after config) st

def collections : ApiStep → List Collection
  | .organization .. => [.organization]
  | .billingAccount .. => [.billingAccount]
  | .membership .. => [.membership]
  | .invitation .. => [.invitation]
  | .accept .. => [.invitation, .membership]
  | .grant _ | .receive .. | .cancel .. => []

/-! ### Effects -/

variable {config : StoreConfig} {st : ApiState} {step : ApiStep}

/-- What watches do writes no entries. -/
theorem entries_write_feed {collection : Collection} {c : MemoryContainer}
    (hEntries : c.entries = (st.containers collection).entries) (other : Collection) :
    (((ApiState.container collection).write c st).containers other).entries =
      (st.containers other).entries := by
  by_cases hOther : other = collection
  · subst hOther
    have hRead : ((ApiState.container other).write c st).containers other = c :=
      (ApiState.container other).read_write c st
    rw [hRead, hEntries]
  · rw [ApiState.SameBeside.write c st other hOther]

theorem containers_grant (w : GrantWrite) :
    (after config st (.grant w)).containers = st.containers := by
  cases w with
  | createRole role | createBinding binding =>
    simp only [after, GrantWrite.run, GrantTable.grants, bind_pure_comp, runOn_map, runOn_cell]
    rfl
  | deleteRole name | deleteBinding name => rfl

/-- A step leaves the entries of the other collections alone. -/
theorem entries_after (hSound : step.IsSound) {collection : Collection}
    (hOther : collection ∉ step.collections) :
    ((step.after config st).containers collection).entries =
      (st.containers collection).entries := by
  have hNe {other : Collection} (hSingle : collection ∉ [other]) : collection ≠ other :=
    fun hEq => hSingle (List.mem_singleton.2 hEq)
  cases hSound with
  | organization call hStores =>
    rw [after, ApiState.sameBeside_organizations config call hStores st collection (hNe hOther)]
  | billingAccount call hStores =>
    rw [after, ApiState.sameBeside_of_rewrites
      (ApiState.rewrites_billingAccounts config call hStores st) collection (hNe hOther)]
  | membership call hStores =>
    rw [after, ApiState.sameBeside_of_rewrites
      (ApiState.rewrites_memberships config call hStores st) collection (hNe hOther)]
  | invitation call hStores =>
    rw [after, ApiState.sameBeside_of_rewrites
      (ApiState.rewrites_invitations config call hStores st) collection (hNe hOther)]
  | @accept call name hTime =>
    obtain ⟨mid, hFirst, hSecond⟩ := ApiState.sameBeside_accept config call name st
    rw [collections, List.mem_cons, not_or] at hOther
    rw [after, hSecond collection (hNe hOther.2), hFirst collection hOther.1]
  | grant w => rw [containers_grant]
  | receive other feed =>
    have hEntries : ((MemoryContainer.receive feed).run (st.containers other)).2.entries =
        (st.containers other).entries := rfl
    exact entries_write_feed hEntries collection
  | cancel other feed =>
    have hEntries : ((MemoryContainer.closeFeed feed).run (st.containers other)).2.entries =
        (st.containers other).entries := rfl
    exact entries_write_feed hEntries collection

/-! ### Invitations -/

/-- As to invitations, a step is a request to them, or it accepts one, or it leaves them alone. -/
theorem IsSound.invitation_cases (hSound : step.IsSound) :
    (∃ call q, step = .invitation call q ∧ q.Stores (StaysFit Invitation.Fits)) ∨
    (∃ call name, step = .accept call name ∧ call.time.IsValid) ∨
    ∀ config st, (step.after config st).invitations = st.invitations := by
  have hRest (hOther : .invitation ∉ step.collections) (config : StoreConfig) (st : ApiState) :
      (step.after config st).invitations = st.invitations := entries_after hSound hOther
  cases hSound with
  | @invitation call q hStores => exact .inl ⟨call, q, rfl, hStores⟩
  | @accept call name hTime => exact .inr (.inl ⟨call, name, rfl, hTime⟩)
  | organization | billingAccount | membership | grant | receive | cancel =>
    exact .inr (.inr (hRest (by simp [collections])))

/-- As to memberships, a step is a request to them, or it accepts an invitation, or it leaves them
alone. -/
theorem IsSound.membership_cases (hSound : step.IsSound) :
    (∃ call q, step = .membership call q ∧ q.Stores (StaysFit Membership.Fits)) ∨
    (∃ call name, step = .accept call name ∧ call.time.IsValid) ∨
    ∀ config st, (step.after config st).memberships = st.memberships := by
  have hRest (hOther : .membership ∉ step.collections) (config : StoreConfig) (st : ApiState) :
      (step.after config st).memberships = st.memberships := entries_after hSound hOther
  cases hSound with
  | @membership call q hStores => exact .inl ⟨call, q, rfl, hStores⟩
  | @accept call name hTime => exact .inr (.inl ⟨call, name, rfl, hTime⟩)
  | organization | billingAccount | invitation | grant | receive | cancel =>
    exact .inr (.inr (hRest (by simp [collections])))

theorem readsInvitations_after (config : StoreConfig) (hReads : st.ReadsInvitations)
    (hSound : step.IsSound) : (step.after config st).ReadsInvitations := by
  rcases hSound.invitation_cases with ⟨call, q, rfl, hStores⟩ | ⟨call, name, rfl, hTime⟩ | hSame
  · obtain ⟨c, hAfter, hRewritten⟩ := ApiState.rewrites_invitations config call hStores st
    rw [after, hAfter]
    have hFit := hRewritten.fit Invitation.codec_undoes.fits_of_decode fun _ _ hStays => hStays
    refine hFit.forall_entries (fun _ i new hStored hBytes => ?_) hReads
    exact ⟨i, Invitation.codec_undoes.roundTrips hStored.1 new.bytes hBytes⟩
  · rcases (ApiState.accept_outcome config name hReads hTime).invitations with hSame | ⟨i, hMarked⟩
    · rwa [after, hSame]
    · exact hMarked.readsInvitations hReads
  · intro name entry
    rw [hSame]
    exact hReads name entry

/-- An invitation that is not written stays as it is. -/
theorem invitation_get?_after (hReads : st.ReadsInvitations) (hSound : step.IsSound)
    {name : String} (hSpares : step.SparesInvitation name)
    (hOther : ∀ call, step ≠ .accept call name) :
    (step.after config st).invitations.get? name = st.invitations.get? name := by
  rcases hSound.invitation_cases with ⟨call, q, rfl, hStores⟩ | ⟨call, other, rfl, hTime⟩ | hSame
  · obtain ⟨c, hAfter, hRewritten⟩ := ApiState.rewrites_invitations config call hStores st
    rw [after, hAfter]
    exact hRewritten.get?_eq hSpares
  · rcases (ApiState.accept_outcome config other hReads hTime).invitations with hSame | ⟨i, hMarked⟩
    · rw [after, hSame]
    · refine hMarked.get?_of_ne ?_
      rintro rfl
      exact hOther call rfl
  · rw [hSame]

theorem readsInvitations_run (hReads : st.ReadsInvitations) {steps : List ApiStep}
    (hSteps : ∀ step ∈ steps, step.IsSound) : (run config steps st).ReadsInvitations := by
  induction steps generalizing st with
  | nil => exact hReads
  | cons step steps ih =>
    obtain ⟨hStep, hRest⟩ := List.forall_mem_cons.1 hSteps
    exact ih (readsInvitations_after config hReads hStep) hRest

end ApiStep

theorem ApiState.readsInvitations_fresh (config : StoreConfig) (grants : GrantTable) :
    (fresh config grants).ReadsInvitations := nofun

end Tenancy
