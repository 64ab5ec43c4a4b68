import Tenancy.Proofs.Organization.Calls
import Tenancy.Proofs.Wire.RoundTrip

/-!
# Accepting an invitation

Accepting marks the invitation first and creates the membership then, each behind the authorizer.
So it ends in one of three ways: nothing has happened, both have, or the invitation is accepted and
there is no membership.

* `ApiState.mark_outcome`: the first of the two steps.
* `ApiState.join_outcome`: the second one.
* `ApiState.accept_outcome`: the whole call.
-/

namespace Tenancy

/-! ## Codecs -/

theorem Codec.Undoes.roundTrips {α : Type} {codec : Codec α} {fits : α → Prop}
    (h : codec.Undoes fits) {x : α} (hFits : fits x) : codec.RoundTrips x := by
  intro bytes hBytes
  obtain ⟨written, hWritten, hRead⟩ := h.decode_encode () () x hFits
  rw [hBytes] at hWritten
  rwa [Except.ok.inj hWritten]

theorem Codec.Undoes.fits_of_decode {α : Type} {codec : Codec α} {fits : α → Prop}
    (h : codec.Undoes fits) (bytes : Bytes) (x : α) (hRead : codec.decode bytes = .ok x) :
    fits x := (h.encode_decoded () () () bytes x hRead).1

theorem Invitation.codec_undoes : (Codec.json Invitation.format).Undoes Invitation.Fits :=
  Invitation.format_faithful.undoes (by decide)

theorem Membership.codec_undoes : (Codec.json Membership.format).Undoes Membership.Fits :=
  Membership.format_faithful.undoes (by decide)

/-- An invitation has been answered, or it has expired, or it can be accepted. -/
theorem Invitation.accept_cases (i : Invitation) (now : Time) :
    (i.status ≠ .pending ∧ i.accept now = .error (.answered i.email i.status)) ∨
    (i.status = .pending ∧ i.expiresAt ≤ now ∧
      i.accept now = .error (.expired i.email i.expiresAt)) ∨
    (i.status = .pending ∧ now < i.expiresAt ∧
      i.accept now = .ok { i with status := .accepted }) := by
  rw [accept, answer, isExpired]
  by_cases hPending : i.status = .pending
  · by_cases hExpired : i.expiresAt ≤ now
    · exact .inr (.inl ⟨hPending, hExpired, by simp [hPending, hExpired]⟩)
    · exact .inr (.inr ⟨hPending, not_not.1 hExpired, by simp [hPending, hExpired]⟩)
  · exact .inl ⟨hPending, by simp [hPending]⟩

namespace ApiState

/-! ## The collections of invitations and memberships -/

def invitations (st : ApiState) : SortedMap String Entry := (st.containers .invitation).entries

def memberships (st : ApiState) : SortedMap String Entry := (st.containers .membership).entries

def invitation? (st : ApiState) (name : String) : Option Invitation :=
  (st.invitations.get? name).bind fun entry =>
    ((Codec.json Invitation.format).decode entry.bytes).toOption

def ReadsInvitations (st : ApiState) : Prop :=
  ∀ name entry, st.invitations.get? name = some entry →
    ∃ i, (Codec.json Invitation.format).decode entry.bytes = .ok i

def invitationStore (config : StoreConfig) : BlobStore (StateM ApiState) Invitation :=
  ⟨.invitation, MemoryContainer.container (container .invitation).cell, .json Invitation.format,
    config, Capabilities.all.erase .watch⟩

def membershipStore (config : StoreConfig) : BlobStore (StateM ApiState) Membership :=
  ⟨.membership, MemoryContainer.container (container .membership).cell, .json Membership.format,
    config, .all⟩

@[simp]
theorem invitations_read (st : ApiState) :
    ((container .invitation).read st).entries = st.invitations := rfl

theorem runOn_authorizer (q : AccessRequest) (st : ApiState) :
    runOn (GrantTable.authorizer table.cell q) st = (.ok (st.grants.decide q), st) := rfl

variable {config : StoreConfig} {call : Call} {name : String} {st : ApiState}

theorem runOn_update_invitation (mutate : Mutation (StateM ApiState) Invitation)
    (allowCreate : Bool) :
    runOn ((ResourceApi.inMemory config).invitations.update call name mutate allowCreate) st =
      match st.grants.decide (.forName call.actor .update .invitation name) with
      | .allow => runOn ((invitationStore config).update call name mutate allowCreate) st
      | .deny reason => (.error (.forbidden reason), st) := by
  have hGuarded : runOn ((ResourceApi.inMemory config).invitations.update call name mutate
      allowCreate) st = _ :=
    Store.runOn_guarded rfl .invitation call (some name)
      ((invitationStore config).update call name mutate allowCreate) st
  rw [hGuarded, Store.question_some, runOn_authorizer]
  cases st.grants.decide (.forName call.actor .update .invitation name) <;> rfl

/-! ## The first step -/

/-- The first step of accepting the invitation `name`. -/
def marking (config : StoreConfig) (call : Call) (name : String) :
    ExceptT StoreError (StateM ApiState) (Outcome Invitation) :=
  (ResourceApi.inMemory config).invitations.update call name
    (ResourceApi.acceptance name call.time) false

/-- Why the invitation `name` cannot be accepted: the errors that leave everything as it is. -/
inductive AcceptRefusal (call : Call) (name : String) (st : ApiState) : StoreError → Prop
  | forbidden (reason : String)
      (hDenied : st.grants.decide (.forName call.actor .update .invitation name) = .deny reason) :
      AcceptRefusal call name st (.forbidden reason)
  | absent (hAbsent : st.invitations.get? name = none) :
      AcceptRefusal call name st (.notFound .invitation name)
  | answered (i : Invitation) (hStored : st.invitation? name = some i)
      (hAnswered : i.status ≠ .pending) :
      AcceptRefusal call name st
        (.conflict (Invitation.Refusal.answered i.email i.status).message)
  | expired (i : Invitation) (hStored : st.invitation? name = some i)
      (hPending : i.status = .pending) (hExpired : i.expiresAt ≤ call.time) :
      AcceptRefusal call name st
        (.conflict (Invitation.Refusal.expired i.email i.expiresAt).message)

/-- From `before` to `after` the invitation `name`, which was `i`, has been accepted.  All else of
it is as it was, its identity included, and so are the other invitations. -/
inductive Marked (name : String) (i : Invitation) (before after : SortedMap String Entry) : Prop
  | intro (old new : Entry) (hStored : before.get? name = some old)
      (hWas : (Codec.json Invitation.format).decode old.bytes = .ok i)
      (hNow : (Codec.json Invitation.format).decode new.bytes = .ok { i with status := .accepted })
      (hName : new.name = old.name) (hUid : new.uid = old.uid)
      (hCreation : new.creationTime = old.creationTime)
      (hAfter : after = before.insert name new)

inductive MarkOutcome (call : Call) (name : String) (st : ApiState) :
    Except StoreError (Outcome Invitation) × ApiState → Prop
  | refused (e : StoreError) (hReason : AcceptRefusal call name st e) :
      MarkOutcome call name st (.error e, st)
  | marked (i : Invitation) (metadata : ObjectMeta) (st' : ApiState)
      (hPending : i.status = .pending) (hTime : call.time < i.expiresAt)
      (hMarked : Marked name i st.invitations st'.invitations)
      (hMemberships : st'.memberships = st.memberships) (hGrants : st'.grants = st.grants) :
      MarkOutcome call name st (.ok (⟨metadata, { i with status := .accepted }⟩, false), st')

namespace Marked

variable {i : Invitation} {st' : ApiState} (h : Marked name i st.invitations st'.invitations)

include h

theorem invitation?_before : st.invitation? name = some i := by
  obtain ⟨old, new, hStored, hWas, -, -, -, -, -⟩ := h
  rw [invitation?, hStored, Option.bind_some, hWas]
  rfl

theorem get?_of_ne {other : String} (hOther : other ≠ name) :
    st'.invitations.get? other = st.invitations.get? other := by
  obtain ⟨old, new, -, -, -, -, -, -, hAfter⟩ := h
  rw [hAfter, SortedMap.get?_insert_of_ne hOther]

theorem invitation?_after : st'.invitation? name = some { i with status := .accepted } := by
  obtain ⟨old, new, -, -, hNow, -, -, -, hAfter⟩ := h
  rw [invitation?, hAfter, SortedMap.get?_insert_self, Option.bind_some, hNow]
  rfl

theorem readsInvitations (hReads : st.ReadsInvitations) : st'.ReadsInvitations := by
  obtain ⟨old, new, -, -, hNow, -, -, -, hAfter⟩ := h
  intro other entry
  rw [hAfter]
  exact SortedMap.forall_get?_insert hReads ⟨_, hNow⟩ other entry

end Marked

theorem runOn_acceptance_some (i : Invitation) (now : Time) :
    runOn (ResourceApi.acceptance (m := StateM ApiState) name now (some i)) st =
      ((i.accept now).mapError fun refusal => .conflict refusal.message, st) := by
  rw [ResourceApi.acceptance]
  cases i.accept now <;> rfl

theorem mark_replace (config : StoreConfig) {old : Entry} {i : Invitation}
    (hStored : st.invitations.get? name = some old)
    (hWas : (Codec.json Invitation.format).decode old.bytes = .ok i) :
    let replacing :=
      runOn ((invitationStore config).replace name i (ResourceApi.acceptance name call.time)) st
    MarkOutcome call name st (replacing.1.map (·, false), replacing.2) := by
  intro replacing
  have hInvitation : st.invitation? name = some i := by
    rw [invitation?, hStored, Option.bind_some, hWas]
    rfl
  simp only [replacing]
  rw [BlobStore.runOn_replace (p := container .invitation) rfl, runOn_acceptance_some]
  rcases i.accept_cases call.time with ⟨hAnswered, hAccept⟩ | ⟨hPending, hExpired, hAccept⟩ |
    ⟨hPending, hTime, hAccept⟩ <;> rw [hAccept]
  · exact .refused _ (.answered i hInvitation hAnswered)
  · exact .refused _ (.expired i hInvitation hPending hExpired)
  · let bytes := Invitation.format.encode { i with status := .accepted }
    let new := ((container .invitation).read st).patchedEntry old bytes
    have hFits : Invitation.Fits { i with status := .accepted } :=
      Invitation.codec_undoes.fits_of_decode old.bytes i hWas
    have hNow : (Codec.json Invitation.format).decode bytes = .ok { i with status := .accepted } :=
      Invitation.codec_undoes.roundTrips hFits _ rfl
    have hRead : (invitationStore config).read new =
        .ok ⟨BlobStore.metadataOf new, { i with status := .accepted }⟩ :=
      BlobStore.read_eq_ok_iff.2 ⟨_, hNow, rfl⟩
    have hWrite : (invitationStore config).write { i with status := .accepted } = .ok bytes :=
      BlobStore.write_eq_ok_iff.2 rfl
    simp only [mapError_ok, hWrite, invitations_read, hStored]
    rw [hRead]
    exact .marked i _ _ hPending hTime (.intro old new hStored hWas hNow rfl rfl rfl rfl) rfl rfl

theorem mark_outcome (config : StoreConfig) (call : Call) (name : String)
    (hReads : st.ReadsInvitations) :
    MarkOutcome call name st (runOn (marking config call name) st) := by
  rw [marking, runOn_update_invitation]
  cases hDecision : st.grants.decide (.forName call.actor .update .invitation name) with
  | deny reason => exact .refused _ (.forbidden reason hDecision)
  | allow =>
    have hUpdate : runOn ((invitationStore config).update call name _ false) st = _ :=
      BlobStore.runOn_update (p := container .invitation) rfl rfl call name
        (ResourceApi.acceptance name call.time) false st
    dsimp only
    rw [hUpdate, invitations_read]
    cases hStored : st.invitations.get? name with
    | none => exact .refused _ (.absent hStored)
    | some old =>
      obtain ⟨i, hWas⟩ := hReads name old hStored
      have hRead : (invitationStore config).read old = .ok ⟨BlobStore.metadataOf old, i⟩ :=
        BlobStore.read_eq_ok_iff.2 ⟨i, hWas, rfl⟩
      dsimp only
      rw [hRead]
      exact mark_replace config hStored hWas

/-! ## The second step -/

inductive JoinRefusal (call : Call) (key : String) (st : ApiState) : StoreError → Prop
  | forbidden (reason : String)
      (hDenied : st.grants.decide (.forName call.actor .create .membership key) = .deny reason) :
      JoinRefusal call key st (.forbidden reason)
  | invalid (fault : NameFault) (hName : checkName key = .error fault) :
      JoinRefusal call key st (.validationFailed fault.message)
  | taken (hTaken : st.memberships.contains key = true) :
      JoinRefusal call key st (.alreadyExists .membership key)

inductive JoinOutcome (call : Call) (key : String) (s : Membership) (st : ApiState) :
    Except StoreError (Resource Membership) × ApiState → Prop
  | refused (e : StoreError) (hReason : JoinRefusal call key st e) :
      JoinOutcome call key s st (.error e, st)
  | joined (entry : Entry) (st' : ApiState) (hName : entry.name = key)
      (hFree : st.memberships.get? key = none)
      (hPayload : (Codec.json Membership.format).decode entry.bytes = .ok s)
      (hAdded : st'.memberships = st.memberships.insert key entry)
      (hInvitations : st'.invitations = st.invitations) :
      JoinOutcome call key s st (.ok ⟨BlobStore.metadataOf entry, s⟩, st')

theorem runOn_create_membership (r : Resource Membership) :
    runOn ((ResourceApi.inMemory config).memberships.create call r) st =
      match st.grants.decide (.forName call.actor .create .membership r.name) with
      | .allow => runOn ((membershipStore config).create call r) st
      | .deny reason => (.error (.forbidden reason), st) := by
  have hGuarded : runOn ((ResourceApi.inMemory config).memberships.create call r) st = _ :=
    Store.runOn_guarded rfl .membership call (some r.name)
      ((membershipStore config).create call r) st
  rw [hGuarded, Store.question_some, runOn_authorizer]
  cases st.grants.decide (.forName call.actor .create .membership r.name) <;> rfl

theorem join_outcome (config : StoreConfig) (call : Call) (key : String) {s : Membership}
    (hFits : s.Fits) (st : ApiState) :
    JoinOutcome call key s st
      (runOn ((ResourceApi.inMemory config).memberships.create call (.named key s)) st) := by
  rw [runOn_create_membership]
  have hKey : (Resource.named key s).name = key := rfl
  rw [hKey]
  cases hDecision : st.grants.decide (.forName call.actor .create .membership key) with
  | deny reason => exact .refused _ (.forbidden reason hDecision)
  | allow =>
    have hCreate : runOn ((membershipStore config).create call (.named key s)) st = _ :=
      BlobStore.runOn_create rfl call (.named key s) st
    have hAssigned : BlobStore.assignedName call (Resource.named key s).metadata = key := rfl
    dsimp only
    rw [hCreate, hAssigned, BlobStore.checkedName]
    cases hName : checkName key with
    | error fault => exact .refused _ (.invalid fault hName)
    | ok _ =>
      have hWrite : (membershipStore config).write s = .ok (Membership.format.encode s) :=
        BlobStore.write_eq_ok_iff.2 rfl
      have hPayload : (Codec.json Membership.format).decode (Membership.format.encode s) = .ok s :=
        Membership.codec_undoes.roundTrips hFits _ rfl
      rw [mapError_ok]
      dsimp only
      rw [BlobStore.runOn_createEntry (p := container .membership) rfl]
      have hStores : (Resource.named key s).payload = s := rfl
      simp only [hStores, hWrite]
      cases hTaken : ((container .membership).read st).entries.contains key with
      | true => exact .refused _ (.taken hTaken)
      | false =>
        simp only [Bool.false_eq_true, if_false]
        let entry := ((container .membership).read st).newEntry call.birth key
          (Membership.format.encode s)
        have hRead : (membershipStore config).read entry = .ok ⟨BlobStore.metadataOf entry, s⟩ :=
          BlobStore.read_eq_ok_iff.2 ⟨s, hPayload, rfl⟩
        rw [hRead]
        exact .joined entry _ rfl (SortedMap.contains_eq_false_iff.1 hTaken) hPayload rfl rfl

/-! ## The whole call -/

/-- The ends of accepting the invitation `name`, from the state `st`: nothing has happened; or the
invitation is accepted, and there is one more membership; or the invitation is accepted, and the
creation of the membership has failed. -/
inductive AcceptOutcome (config : StoreConfig) (call : Call) (name : String) (st : ApiState) :
    Except StoreError (Resource Membership) × ApiState → Prop
  | refused (e : StoreError) (hReason : AcceptRefusal call name st e) :
      AcceptOutcome config call name st (.error e, st)
  | joined (i : Invitation) (entry : Entry) (s : Membership) (st' : ApiState)
      (hPending : i.status = .pending) (hTime : call.time < i.expiresAt)
      (hMarked : Marked name i st.invitations st'.invitations)
      (hName : entry.name = i.organization ++ "-" ++ call.actor.name)
      (hFree : st.memberships.get? entry.name = none)
      (hAdded : st'.memberships = st.memberships.insert entry.name entry)
      (hPayload : (Codec.json Membership.format).decode entry.bytes = .ok s)
      (hMembership : s =
        { organization := i.organization
          member := call.actor.name
          role := i.role
          joinedAt := call.time
          invitedBy := some i.invitedBy
          isActive := true
          title := none }) :
      AcceptOutcome config call name st (.ok ⟨BlobStore.metadataOf entry, s⟩, st')
  | unfinished (i : Invitation) (e : StoreError) (st' : ApiState)
      (hPending : i.status = .pending) (hTime : call.time < i.expiresAt)
      (hMarked : Marked name i st.invitations st'.invitations)
      (hMemberships : st'.memberships = st.memberships) (hGrants : st'.grants = st.grants)
      (hFails : runOn ((ResourceApi.inMemory config).memberships.create call
        (.named (i.organization ++ "-" ++ call.actor.name)
          (i.membershipFor call.actor.name call.time))) st' = (.error e, st'))
      (hReason : JoinRefusal call (i.organization ++ "-" ++ call.actor.name) st' e) :
      AcceptOutcome config call name st (.error e, st')

theorem runOn_accept_of_error {e : StoreError} {st' : ApiState}
    (hMark : runOn (marking config call name) st = (.error e, st')) :
    runOn ((ResourceApi.inMemory config).acceptInvitation call name) st = (.error e, st') := by
  rw [marking] at hMark
  rw [ResourceApi.acceptInvitation, runOn_bind, hMark]

theorem runOn_accept_of_marked {metadata : ObjectMeta} {i : Invitation} {created : Bool}
    {st' : ApiState} (hMark : runOn (marking config call name) st =
      (.ok (⟨metadata, { i with status := .accepted }⟩, created), st')) :
    runOn ((ResourceApi.inMemory config).acceptInvitation call name) st =
      runOn ((ResourceApi.inMemory config).memberships.create call
        (.named (i.organization ++ "-" ++ call.actor.name)
          (i.membershipFor call.actor.name call.time))) st' := by
  rw [marking] at hMark
  rw [ResourceApi.acceptInvitation, runOn_bind, hMark]
  rfl

theorem accept_outcome (config : StoreConfig) (name : String) (hReads : st.ReadsInvitations)
    (hTime : call.time.IsValid) :
    AcceptOutcome config call name st
      (runOn ((ResourceApi.inMemory config).acceptInvitation call name) st) := by
  have hMark := mark_outcome config call name hReads
  rcases hFirst : runOn (marking config call name) st with ⟨first, st'⟩
  rw [hFirst] at hMark
  cases hMark with
  | refused e hReason =>
    rw [runOn_accept_of_error hFirst]
    exact .refused e hReason
  | marked i metadata _ hPending hUnexpired hMarked hMemberships hGrants =>
    let key := i.organization ++ "-" ++ call.actor.name
    let s := i.membershipFor call.actor.name call.time
    have hFits : s.Fits := hTime
    have hJoin := join_outcome config call key hFits st'
    rw [runOn_accept_of_marked hFirst]
    rcases hSecond : runOn ((ResourceApi.inMemory config).memberships.create call
      (.named key s)) st' with ⟨second, st''⟩
    rw [hSecond] at hJoin
    cases hJoin with
    | refused e hReason =>
      exact .unfinished i e st' hPending hUnexpired hMarked hMemberships hGrants hSecond hReason
    | joined entry _ hName hFree hPayload hAdded hInvitations =>
      -- Neither step writes the collection of the other, so both hold of the call as a whole.
      rw [hMemberships] at hFree hAdded
      rw [← hInvitations] at hMarked
      rw [← hName] at hFree hAdded
      exact .joined i entry s st'' hPending hUnexpired hMarked hName hFree hAdded hPayload rfl

/-- What accepting makes of the invitations. -/
theorem AcceptOutcome.invitations {outcome : Except StoreError (Resource Membership) × ApiState}
    (h : AcceptOutcome config call name st outcome) :
    outcome.2 = st ∨ ∃ i, Marked name i st.invitations outcome.2.invitations := by
  cases h with
  | refused => exact .inl rfl
  | joined i _ _ _ _ _ hMarked => exact .inr ⟨i, hMarked⟩
  | unfinished i _ _ _ _ hMarked => exact .inr ⟨i, hMarked⟩

/-- What accepting makes of the memberships. -/
theorem AcceptOutcome.memberships {outcome : Except StoreError (Resource Membership) × ApiState}
    (h : AcceptOutcome config call name st outcome) :
    outcome.2.memberships = st.memberships ∨
      ∃ (entry : Entry) (s : Membership), s.objectName = entry.name ∧
        (Codec.json Membership.format).decode entry.bytes = .ok s ∧
        outcome.2.memberships = st.memberships.insert entry.name entry := by
  cases h with
  | refused => exact .inl rfl
  | joined i entry s st' _ _ _ hName _ hAdded hPayload hMembership =>
    refine .inr ⟨entry, s, ?_, hPayload, hAdded⟩
    rw [hMembership, hName]
    rfl
  | unfinished _ _ _ _ _ _ hMemberships => exact .inl hMemberships

end ApiState

end Tenancy
