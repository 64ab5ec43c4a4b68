import Tenancy.Proofs.Access.Decision
import Tenancy.Proofs.Organization.ApiRun
import Tenancy.Proofs.Organization.OwnerGrants

/-!
# Names of memberships

The resource of a membership is named for its organization and its member, with a hyphen between
them.  Both may have hyphens of their own, so the memberships of two different pairs can have one
name, and then the one keeps the other from being created.

* `Membership.objectName_eq_iff`: which memberships have one name.
* `accepting_blocked_by_name_only`: nothing else keeps an actor who is allowed to accept an
  invitation from its membership.
* `accepting_blocked_by_another_pair`: a membership of another organization and another member does.
-/

namespace Tenancy

/-! ## Memberships of one name -/

/-- Two ways to cut one list at the same element are the same, or one cuts off more than the
other. -/
theorem cut_eq_or_longer {α : Type} {c : α} {xs ys xs' ys' : List α}
    (h : xs ++ c :: ys = xs' ++ c :: ys') :
    (xs = xs' ∧ ys = ys') ∨ ∃ rest, xs = xs' ++ c :: rest ∧ ys' = rest ++ c :: ys ∨
      xs' = xs ++ c :: rest ∧ ys = rest ++ c :: ys' := by
  rcases List.append_eq_append_iff.1 h with ⟨zs, rfl, hRest⟩ | ⟨zs, rfl, hRest⟩
  · rcases List.cons_eq_append_iff.1 hRest with ⟨rfl, hEq⟩ | ⟨rest, rfl, rfl⟩
    · exact .inl ⟨(List.append_nil xs).symm, (List.cons.inj hEq).2.symm⟩
    · exact .inr ⟨rest, .inr ⟨rfl, rfl⟩⟩
  · rcases List.cons_eq_append_iff.1 hRest with ⟨rfl, hEq⟩ | ⟨rest, rfl, rfl⟩
    · exact .inl ⟨List.append_nil xs', (List.cons.inj hEq).2⟩
    · exact .inr ⟨rest, .inl ⟨rfl, rfl⟩⟩

namespace Membership

def SamePair (s t : Membership) : Prop := s.organization = t.organization ∧ s.member = t.member

/-- One organization is called as the other with a hyphen and more, and the member there is called
as this rest, a hyphen and the member here. -/
def Clashes (s t : Membership) : Prop :=
  ∃ rest, s.organization = t.organization ++ "-" ++ rest ∧ t.member = rest ++ "-" ++ s.member ∨
    t.organization = s.organization ++ "-" ++ rest ∧ s.member = rest ++ "-" ++ t.member

theorem toList_join (first second : String) :
    (first ++ "-" ++ second).toList = first.toList ++ '-' :: second.toList := by
  rw [String.toList_append, String.toList_append, List.append_assoc]
  rfl

theorem objectName_eq_iff (s t : Membership) :
    s.objectName = t.objectName ↔ s.SamePair t ∨ s.Clashes t := by
  constructor
  · intro hName
    have hCut := congrArg String.toList hName
    rw [objectName, objectName, toList_join, toList_join] at hCut
    rcases cut_eq_or_longer hCut with ⟨hOrganization, hMember⟩ | ⟨rest, hLonger⟩
    · exact .inl ⟨String.toList_inj.1 hOrganization, String.toList_inj.1 hMember⟩
    · refine .inr ⟨String.ofList rest, ?_⟩
      simp only [← String.toList_inj, toList_join, String.toList_ofList]
      exact hLonger
  · rintro (⟨hOrganization, hMember⟩ | ⟨rest, ⟨hLonger, hMember⟩ | ⟨hLonger, hMember⟩⟩)
    · rw [objectName, objectName, hOrganization, hMember]
    · simp only [objectName, hLonger, hMember, String.append_assoc]
    · simp only [objectName, hLonger, hMember, String.append_assoc]

end Membership

/-! ## Accepting under a free name -/

namespace ApiState

def storedMemberships (st : ApiState) : List Membership :=
  st.memberships.values.filterMap fun entry =>
    ((Codec.json Membership.format).decode entry.bytes).toOption

/-- The invitation `name` is `i`, which is pending and has not expired.  The actor may update it and
create the membership that it gives, and the name of this is valid. -/
structure MayAccept (st : ApiState) (call : Call) (name : String) (i : Invitation) : Prop where
  stored : st.invitation? name = some i
  pending : i.status = .pending
  unexpired : call.time < i.expiresAt
  updates : st.grants.decide (.forName call.actor .update .invitation name) = .allow
  creates : st.grants.decide (.forName call.actor .create .membership
    (i.membershipFor call.actor.name call.time).objectName) = .allow
  valid : isValidName (i.membershipFor call.actor.name call.time).objectName = true

/-- Accepting the invitation `name`, which is `i`, succeeds and creates its membership. -/
def AcceptSucceeds (config : StoreConfig) (call : Call) (name : String) (i : Invitation)
    (st : ApiState) : Prop :=
  let s := i.membershipFor call.actor.name call.time
  ∃ entry st', runOn ((ResourceApi.inMemory config).acceptInvitation call name) st =
      (.ok ⟨BlobStore.metadataOf entry, s⟩, st') ∧
    entry.name = s.objectName ∧ (Codec.json Membership.format).decode entry.bytes = .ok s ∧
    st'.memberships = st.memberships.insert s.objectName entry

variable {config : StoreConfig} {call : Call} {name key : String} {i : Invitation}
  {st : ApiState}

theorem mem_storedMemberships {entry : Entry} {s : Membership}
    (hStored : st.memberships.get? key = some entry)
    (hRead : (Codec.json Membership.format).decode entry.bytes = .ok s) :
    s ∈ st.storedMemberships := by
  refine List.mem_filterMap.2 ⟨entry, SortedMap.mem_values.2 ⟨key, hStored⟩, ?_⟩
  rw [hRead]
  rfl

theorem MayAccept.not_refused (h : st.MayAccept call name i) (e : StoreError) :
    ¬ AcceptRefusal call name st e := by
  rintro (⟨reason, hDenied⟩ | hAbsent | ⟨j, hStored, hAnswered⟩ | ⟨j, hStored, -, hExpired⟩)
  · rw [h.updates] at hDenied
    cases hDenied
  · have hStored := h.stored
    rw [invitation?, hAbsent] at hStored
    cases hStored
  · obtain rfl := Option.some.inj (hStored.symm.trans h.stored)
    exact hAnswered h.pending
  · obtain rfl := Option.some.inj (hStored.symm.trans h.stored)
    exact hExpired h.unexpired

theorem MayAccept.not_join_refused (h : st.MayAccept call name i) {st' : ApiState}
    (hFree : st.memberships.get? (i.membershipFor call.actor.name call.time).objectName = none)
    (hGrants : st'.grants = st.grants) (hMemberships : st'.memberships = st.memberships)
    (e : StoreError) :
    ¬ JoinRefusal call (i.membershipFor call.actor.name call.time).objectName st' e := by
  rintro (⟨reason, hDenied⟩ | ⟨fault, hName⟩ | hTaken)
  · rw [hGrants, h.creates] at hDenied
    cases hDenied
  · have hValid := h.valid
    rw [isValidName, hName] at hValid
    cases hValid
  · rw [hMemberships, SortedMap.contains_eq_false_iff.2 hFree] at hTaken
    cases hTaken

theorem accept_succeeds (hReads : st.ReadsInvitations) (hTime : call.time.IsValid)
    (h : st.MayAccept call name i)
    (hFree : st.memberships.get? (i.membershipFor call.actor.name call.time).objectName = none) :
    AcceptSucceeds config call name i st := by
  have hOutcome := accept_outcome config name hReads hTime
  have hSame {j : Invitation} {st' : ApiState}
      (hMarked : Marked name j st.invitations st'.invitations) : j = i :=
    Option.some.inj (hMarked.invitation?_before.symm.trans h.stored)
  rcases hRun : runOn ((ResourceApi.inMemory config).acceptInvitation call name) st with
    ⟨result, st'⟩
  rw [hRun] at hOutcome
  cases hOutcome with
  | refused e hReason => exact absurd hReason (h.not_refused e)
  | joined j entry s st' _ _ hMarked hName _ hAdded hPayload hMembership =>
    obtain rfl := hSame hMarked
    subst hMembership
    rw [hName] at hAdded
    exact ⟨entry, st', hRun, hName, hPayload, hAdded⟩
  | unfinished j e st' _ _ hMarked hMemberships hGrants _ hReason =>
    obtain rfl := hSame hMarked
    exact absurd hReason (h.not_join_refused hFree hGrants hMemberships e)

end ApiState

/-! ## Runs in which members join by invitation -/

namespace ApiStep

/-- The step creates no membership but by accepting an invitation. -/
def JoinsByInvitation : ApiStep → Prop
  | .membership _ q => q.Stores fun old _ => old ≠ none
  | _ => True

/-- The step gives no membership that is stored to another organization or member. -/
def KeepsPairs : ApiStep → Prop
  | .membership _ q => q.Stores fun old s => ∀ was, old = some was → s.SamePair was
  | _ => True

end ApiStep

/-- Every stored membership is stored under the name that it has. -/
def ApiState.NamesMemberships (st : ApiState) : Prop :=
  ∀ key entry, st.memberships.get? key = some entry →
    ∃ s, (Codec.json Membership.format).decode entry.bytes = .ok s ∧ s.objectName = key

theorem ApiState.NamesMemberships.congr {st st' : ApiState} (h : st.NamesMemberships)
    (hSame : st'.memberships = st.memberships) : st'.NamesMemberships := by
  intro key entry
  rw [hSame]
  exact h key entry

namespace ApiStep

variable {config : StoreConfig} {st : ApiState} {step : ApiStep} {steps : List ApiStep}

theorem namesMemberships_after (hReads : st.ReadsInvitations) (hNames : st.NamesMemberships)
    (hSound : step.IsSound) (hJoins : step.JoinsByInvitation) (hPairs : step.KeepsPairs) :
    (step.after config st).NamesMemberships := by
  rcases hSound.membership_cases with ⟨call, q, rfl, hStores⟩ | ⟨call, name, rfl, hTime⟩ | hSame
  · have hOld : q.Stores fun old _ => old ≠ none := hJoins
    have hPair : q.Stores fun old s => ∀ was, old = some was → s.SamePair was := hPairs
    obtain ⟨c, hAfter, hRewritten⟩ :=
      ApiState.rewrites_memberships config call (hStores.and (hOld.and hPair)) st
    have hFit := hRewritten.fit Membership.codec_undoes.fits_of_decode fun _ _ hAll => hAll.1
    intro key entry
    rw [after, hAfter]
    change c.entries.get? key = some entry → _
    generalize q.written? call = written, c.entries = entries at hFit ⊢
    cases hFit with
    | same => exact hNames key entry
    | created _ hRel =>
      obtain ⟨-, -, hSome, -⟩ := hRel
      exact absurd rfl hSome
    | @replaced name old new was s hStored hWas hRel hBytes =>
      -- The pair stays, and with it the name under which the entry is stored already.
      obtain ⟨hFits, -, -, hSame⟩ := hRel
      obtain ⟨t, hRead, hName⟩ := hNames name old hStored
      obtain rfl := Except.ok.inj (hWas.symm.trans hRead)
      refine SortedMap.forall_get?_insert hNames ⟨s, ?_, ?_⟩ key entry
      · exact Membership.codec_undoes.roundTrips hFits new.bytes hBytes
      · rw [(Membership.objectName_eq_iff s was).2 (.inl (hSame was rfl)), hName]
    | removed => exact SortedMap.forall_get?_erase hNames key entry
  · rcases (ApiState.accept_outcome config name hReads hTime).memberships with
      hSame | ⟨new, s, hName, hPayload, hAdded⟩
    · exact hNames.congr hSame
    · intro key entry
      rw [after, hAdded]
      exact SortedMap.forall_get?_insert hNames ⟨s, hPayload, hName⟩ key entry
  · exact hNames.congr (hSame config st)

theorem namesMemberships_run (hReads : st.ReadsInvitations) (hNames : st.NamesMemberships)
    (hSteps : ∀ step ∈ steps, step.IsSound)
    (hJoins : ∀ step ∈ steps, step.JoinsByInvitation ∧ step.KeepsPairs) :
    (run config steps st).NamesMemberships := by
  induction steps generalizing st with
  | nil => exact hNames
  | cons step steps ih =>
    obtain ⟨hSound, hRest⟩ := List.forall_mem_cons.1 hSteps
    obtain ⟨⟨hJoin, hPairs⟩, hJoinRest⟩ := List.forall_mem_cons.1 hJoins
    exact ih (readsInvitations_after config hReads hSound)
      (namesMemberships_after hReads hNames hSound hJoin hPairs) hRest hJoinRest

end ApiStep

/-- In every state that the API can come to, an actor who may accept an invitation gets the
membership, unless its name is taken.  Two memberships have one name exactly if they are of one
organization and one member, or if they clash.  So, if members have joined by invitation only and
keep their memberships, the actor gets the membership unless there is one of the same organization
and member or one that clashes with it. -/
theorem accepting_blocked_by_name_only (config : StoreConfig) (grants : GrantTable)
    (steps : List ApiStep) (hSteps : ∀ step ∈ steps, step.IsSound) :
    let st := ApiStep.run config steps (.fresh config grants)
    (∀ call name i, call.time.IsValid → st.MayAccept call name i →
      st.memberships.get? (i.membershipFor call.actor.name call.time).objectName = none →
        ApiState.AcceptSucceeds config call name i st) ∧
    (∀ s t : Membership, s.objectName = t.objectName ↔ s.SamePair t ∨ s.Clashes t) ∧
    ((∀ step ∈ steps, step.JoinsByInvitation ∧ step.KeepsPairs) →
      ∀ call name i, call.time.IsValid → st.MayAccept call name i →
        (∀ s ∈ st.storedMemberships,
          ¬ s.SamePair (i.membershipFor call.actor.name call.time) ∧
          ¬ s.Clashes (i.membershipFor call.actor.name call.time)) →
        ApiState.AcceptSucceeds config call name i st) := by
  intro st
  have hReads : st.ReadsInvitations :=
    ApiStep.readsInvitations_run (ApiState.readsInvitations_fresh config grants) hSteps
  refine ⟨fun call name i hTime hMay hFree => ApiState.accept_succeeds hReads hTime hMay hFree,
    Membership.objectName_eq_iff, fun hJoins call name i hTime hMay hApart => ?_⟩
  have hNames : st.NamesMemberships :=
    ApiStep.namesMemberships_run (ApiState.readsInvitations_fresh config grants) nofun hSteps hJoins
  refine ApiState.accept_succeeds hReads hTime hMay ?_
  cases hStored : st.memberships.get? (i.membershipFor call.actor.name call.time).objectName with
  | none => rfl
  | some entry =>
    obtain ⟨s, hRead, hName⟩ := hNames _ entry hStored
    obtain ⟨hOther, hNoClash⟩ := hApart s (ApiState.mem_storedMemberships hStored hRead)
    exact ((Membership.objectName_eq_iff s _).1 hName).elim (absurd · hOther) (absurd · hNoClash)

def Invitation.toOrganization (organization : String) : Invitation :=
  ⟨organization, "someone@example.com", .member, "alice", .pending, ⟨100, 0⟩⟩

/-- Invitations are made to two organizations, and "c" accepts the first. -/
def ApiStep.joining (first second : String) : List ApiStep := [
  .invitation (.bySuperuser "alice" "1")
    (.one (.write (.create (.named "first" (.toOrganization first))))),
  .invitation (.bySuperuser "alice" "2")
    (.one (.write (.create (.named "second" (.toOrganization second))))),
  .accept (.bySuperuser "c" "3") "first"]

/-- The state after some steps, in which there is one group of superusers. -/
def ApiState.reached (steps : List ApiStep) : ApiState :=
  ApiStep.run {} steps (.fresh {} (.empty ["root"]))

theorem ApiStep.isSound_joining (first second : String) :
    ∀ step ∈ ApiStep.joining first second,
      step.IsSound ∧ step.JoinsByInvitation ∧ step.KeepsPairs := by
  simp only [ApiStep.joining, List.forall_mem_cons]
  have hFits : Time.IsValid ⟨100, 0⟩ := by decide
  exact ⟨⟨.invitation _ fun _ => hFits, trivial, trivial⟩,
    ⟨.invitation _ fun _ => hFits, trivial, trivial⟩, ⟨.accept _ (by decide), trivial, trivial⟩,
    List.forall_mem_nil _⟩

theorem ApiState.mayAccept_superuser {st : ApiState} {organization : String} (member uid : String)
    (hStored : st.invitation? "second" = some (.toOrganization organization))
    (hSuperusers : st.grants.superusers = ["root"])
    (hName : isValidName (organization ++ "-" ++ member) = true) :
    st.MayAccept (.bySuperuser member uid) "second" (.toOrganization organization) := by
  have hAllowed (q : AccessRequest) (hGroups : q.actor.groups = ["root"]) :
      st.grants.decide q = .allow := by
    refine GrantTable.decide_eq_allow_iff.2 (.inl ?_)
    rw [GrantTable.IsSuperuser, hSuperusers, hGroups]
    decide
  have hTime : (⟨0, 0⟩ : Time) < ⟨100, 0⟩ := by decide
  exact ⟨hStored, rfl, hTime, hAllowed _ rfl, hAllowed _ rfl, hName⟩

/-- The third member gets its membership. -/
theorem accepting_blocked_by_name_only_third :
    let steps := ApiStep.joining "a-b" "a"
    let call : Call := .bySuperuser "d" "4"
    let s := (Invitation.toOrganization "a").membershipFor call.actor.name call.time
    (∀ step ∈ steps, step.IsSound ∧ step.JoinsByInvitation ∧ step.KeepsPairs) ∧
    call.time.IsValid ∧
    (ApiState.reached steps).MayAccept call "second" (.toOrganization "a") ∧
    (ApiState.reached steps).memberships.keys = ["a-b-c"] ∧
    (∀ t ∈ (ApiState.reached steps).storedMemberships, ¬ t.SamePair s ∧ ¬ t.Clashes s) ∧
    ApiState.AcceptSucceeds {} call "second" (.toOrganization "a") (ApiState.reached steps) := by
  intro steps call s
  have hSteps := ApiStep.isSound_joining "a-b" "a"
  have hTime : call.time.IsValid := by decide
  have hMay : (ApiState.reached steps).MayAccept call "second" (.toOrganization "a") :=
    ApiState.mayAccept_superuser "d" "4" (by decide +kernel) (by decide +kernel) (by decide)
  have hNames : ∀ t ∈ (ApiState.reached steps).storedMemberships,
      t.objectName ≠ s.objectName := by decide +kernel
  have hApart : ∀ t ∈ (ApiState.reached steps).storedMemberships,
      ¬ t.SamePair s ∧ ¬ t.Clashes s :=
    fun t hMem => not_or.1 (mt (Membership.objectName_eq_iff t s).2 (hNames t hMem))
  obtain ⟨-, -, hJoins⟩ := accepting_blocked_by_name_only {} (.empty ["root"]) steps
    fun step hMem => (hSteps step hMem).1
  exact ⟨hSteps, hTime, hMay, by decide +kernel, hApart,
    hJoins (fun step hMem => (hSteps step hMem).2) call "second" _ hTime hMay hApart⟩

/-- The actor may accept the invitation `name`, which is `i`, and there is no membership of its
organization and the actor.  But the name is taken, so the call fails, and the invitation is used
up. -/
structure ApiState.Blocks (st : ApiState) (call : Call) (name : String) (i : Invitation) :
    Prop where
  time : call.time.IsValid
  may : st.MayAccept call name i
  unpaired : ∀ s ∈ st.storedMemberships,
    ¬ s.SamePair (i.membershipFor call.actor.name call.time)
  fails : problem? (runOn ((ResourceApi.inMemory {}).acceptInvitation call name) st).1 =
    some (.alreadyExists .membership (i.membershipFor call.actor.name call.time).objectName)
  used : ((runOn ((ResourceApi.inMemory {}).acceptInvitation call name) st).2.invitation? name).map
    (·.status) = some .accepted

def Membership.handOver (member : String) : Option Membership → Except StoreError Membership
  | some s => .ok { s with member := member }
  | none => .error (.notFound .membership member)

/-- "c" joins the organization "a", and the membership is given to "d". -/
def ApiStep.handedOver : List ApiStep :=
  ApiStep.joining "a" "a" ++ [.membership (.bySuperuser "alice" "4")
    (.one (.write (.update "a-c" (.ofFunction (Membership.handOver "d")) false)))]

theorem ApiStep.isSound_handedOver :
    ∀ step ∈ ApiStep.handedOver, step.IsSound ∧ step.JoinsByInvitation := by
  refine List.forall_mem_append.2 ⟨fun step hMem => ?_, List.forall_mem_singleton.2 ⟨?_, ?_⟩⟩
  · obtain ⟨hSound, hJoins, -⟩ := ApiStep.isSound_joining "a" "a" step hMem
    exact ⟨hSound, hJoins⟩
  · refine .membership _ ?_
    rintro (_ | s) st
    · exact ⟨rfl, fun hAllow => nomatch hAllow rfl⟩
    · refine ⟨rfl, ?_⟩
      rintro - _ ⟨⟩ hFits
      exact hFits s rfl
  · rintro (_ | s) st
    · exact ⟨rfl, fun hAllow => nomatch hAllow rfl⟩
    · exact ⟨rfl, nofun⟩

/-- The membership of "a-b" and "c" keeps "b-c" from joining "a".  And the membership with which "c"
has joined "a" keeps "c" from it after it has been given to "d". -/
theorem accepting_blocked_by_another_pair :
    (∀ step ∈ ApiStep.joining "a-b" "a", step.IsSound ∧ step.JoinsByInvitation ∧ step.KeepsPairs) ∧
    (ApiState.reached (ApiStep.joining "a-b" "a")).Blocks (.bySuperuser "b-c" "4") "second"
      (.toOrganization "a") ∧
    (∀ step ∈ ApiStep.handedOver, step.IsSound ∧ step.JoinsByInvitation) ∧
    (ApiState.reached ApiStep.handedOver).Blocks (.bySuperuser "c" "5") "second"
      (.toOrganization "a") := by
  refine ⟨ApiStep.isSound_joining "a-b" "a", ?_, ApiStep.isSound_handedOver, ?_⟩
  · have hMay : (ApiState.reached (ApiStep.joining "a-b" "a")).MayAccept _ "second"
        (.toOrganization "a") :=
      ApiState.mayAccept_superuser "b-c" "4" (by decide +kernel) (by decide +kernel) (by decide)
    have hPairs : ∀ s ∈ (ApiState.reached (ApiStep.joining "a-b" "a")).storedMemberships,
        ¬ (s.organization = "a" ∧ s.member = "b-c") := by decide +kernel
    exact ⟨by decide, hMay, hPairs, by decide +kernel, by decide +kernel⟩
  · have hMay : (ApiState.reached ApiStep.handedOver).MayAccept _ "second"
        (.toOrganization "a") :=
      ApiState.mayAccept_superuser "c" "5" (by decide +kernel) (by decide +kernel) (by decide)
    have hPairs : ∀ s ∈ (ApiState.reached ApiStep.handedOver).storedMemberships,
        ¬ (s.organization = "a" ∧ s.member = "c") := by decide +kernel
    exact ⟨by decide, hMay, hPairs, by decide +kernel, by decide +kernel⟩

end Tenancy
