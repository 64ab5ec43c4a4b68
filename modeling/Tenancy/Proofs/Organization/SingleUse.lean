import Tenancy.Proofs.Organization.ApiRun
import Tenancy.Proofs.Organization.OwnerGrants

/-!
# Invitations are used once

The first step of accepting an invitation succeeds only if the invitation is pending, and then it is
pending no more.  So among all the calls that accept one invitation at most one gets past the first
step, and at most one membership comes of them.

* `ApiStep.attempts`: these calls, each with the state in which it begins.
* `invitation_used_at_most_once`: what each of them does, and what all of them do together.
-/

namespace Tenancy

/-! ## Answered invitations -/

namespace ApiState

def Answered (st : ApiState) (name : String) : Prop :=
  ∀ i, st.invitation? name = some i → i.status ≠ .pending

variable {config : StoreConfig} {call : Call} {name : String} {st st' : ApiState}

theorem Answered.congr (h : st.Answered name)
    (hSame : st'.invitations.get? name = st.invitations.get? name) : st'.Answered name := by
  intro i hStored
  rw [invitation?, hSame] at hStored
  exact h i hStored

/-- The first step fails if the invitation has its answer. -/
theorem Answered.marking_fails (h : st.Answered name) (hReads : st.ReadsInvitations) :
    problem? (runOn (marking config call name) st).1 ≠ none := by
  have hMark := mark_outcome config call name hReads
  rcases hRun : runOn (marking config call name) st with ⟨first, mid⟩
  rw [hRun] at hMark
  cases hMark with
  | refused e hReason => nofun
  | marked i _ _ hPending _ hMarked => exact absurd hPending (h i hMarked.invitation?_before)

/-- A call that fails in its first step has done nothing. -/
theorem accept_of_marking_fails (hReads : st.ReadsInvitations)
    (hFails : problem? (runOn (marking config call name) st).1 ≠ none) :
    ∃ e, runOn ((ResourceApi.inMemory config).acceptInvitation call name) st = (.error e, st) := by
  have hMark := mark_outcome config call name hReads
  rcases hRun : runOn (marking config call name) st with ⟨first, mid⟩
  rw [hRun] at hMark hFails
  cases hMark with
  | refused e hReason => exact ⟨e, runOn_accept_of_error hRun⟩
  | marked => exact absurd rfl hFails

/-- After a call that gets past its first step the invitation is accepted, however the call ends. -/
theorem answered_of_marking (hReads : st.ReadsInvitations) (hTime : call.time.IsValid)
    (hPasses : problem? (runOn (marking config call name) st).1 = none) :
    (runOn ((ResourceApi.inMemory config).acceptInvitation call name) st).2.Answered name := by
  have hMark := mark_outcome config call name hReads
  rcases hRun : runOn (marking config call name) st with ⟨first, mid⟩
  rw [hRun] at hMark hPasses
  cases hMark with
  | refused e hReason => cases hPasses
  | marked i metadata _ _ _ hMarked =>
    have hAccepted : mid.Answered name := by
      intro j hStored
      obtain rfl := Option.some.inj (hMarked.invitation?_after.symm.trans hStored)
      nofun
    have hFits : (i.membershipFor call.actor.name call.time).Fits := hTime
    have hJoin := join_outcome config call (i.organization ++ "-" ++ call.actor.name) hFits mid
    rw [runOn_accept_of_marked hRun]
    revert hJoin
    generalize runOn ((ResourceApi.inMemory config).memberships.create call _) mid = outcome
    rintro (_ | ⟨entry, st', -, -, -, -, hInvitations⟩)
    · exact hAccepted
    · exact hAccepted.congr (congrArg (·.get? name) hInvitations)

end ApiState

/-! ## All attempts of a run -/

namespace ApiStep

open ApiState (marking)

/-- The calls of a run that accept the invitation `name`, each with the state in which it begins. -/
def attempts (config : StoreConfig) (name : String) :
    List ApiStep → ApiState → List (Call × ApiState)
  | [], _ => []
  | step :: steps, st =>
    let rest := attempts config name steps (step.after config st)
    match step with
    | .accept call other => if other = name then (call, st) :: rest else rest
    | _ => rest

/-- The call gets past its first step. -/
def marks (config : StoreConfig) (name : String) (attempt : Call × ApiState) : Bool :=
  (problem? (runOn (marking config attempt.1 name) attempt.2).1).isNone

def joins (config : StoreConfig) (name : String) (attempt : Call × ApiState) : Bool :=
  let accepting := (ResourceApi.inMemory config).acceptInvitation attempt.1 name
  (problem? (runOn accepting attempt.2).1).isNone

variable {config : StoreConfig} {name : String} {st : ApiState} {step : ApiStep}
  {steps : List ApiStep}

theorem attempts_accept (call : Call) :
    attempts config name (.accept call name :: steps) st =
      (call, st) :: attempts config name steps (after config st (.accept call name)) := if_pos rfl

theorem attempts_of_ne (hOther : ∀ call, step ≠ .accept call name) :
    attempts config name (step :: steps) st =
      attempts config name steps (step.after config st) := by
  cases step with
  | accept call other =>
    refine if_neg ?_
    rintro rfl
    exact hOther call rfl
  | organization | billingAccount | membership | invitation | grant | receive | cancel => rfl

/-- A step accepts the invitation, or it is something else. -/
theorem accepts_or_ne (name : String) (step : ApiStep) :
    (∃ call, step = .accept call name) ∨ ∀ call, step ≠ .accept call name := by
  cases step with
  | accept call other =>
    by_cases hName : other = name
    · exact .inl ⟨call, hName ▸ rfl⟩
    · exact .inr fun _ hEq => hName (ApiStep.accept.inj hEq).2
  | organization | billingAccount | membership | invitation | grant | receive | cancel =>
    exact .inr nofun

/-- Every attempt begins in a state in which invitations can be read, at a time of the calendar. -/
theorem of_mem_attempts (hReads : st.ReadsInvitations) (hSteps : ∀ step ∈ steps, step.IsSound) :
    ∀ attempt ∈ attempts config name steps st,
      attempt.2.ReadsInvitations ∧ attempt.1.time.IsValid := by
  induction steps generalizing st with
  | nil => exact List.forall_mem_nil _
  | cons step steps ih =>
    obtain ⟨hStep, hRest⟩ := List.forall_mem_cons.1 hSteps
    have hAfter := ih (readsInvitations_after config hReads hStep) hRest
    rcases accepts_or_ne name step with ⟨call, rfl⟩ | hOther
    · rw [attempts_accept]
      cases hStep with
      | accept _ hTime => exact List.forall_mem_cons.2 ⟨⟨hReads, hTime⟩, hAfter⟩
    · rwa [attempts_of_ne hOther]

theorem marks_iff (config : StoreConfig) (name : String) (call : Call) (st : ApiState) :
    marks config name (call, st) = true ↔
      problem? (runOn (marking config call name) st).1 = none := Option.isNone_iff_eq_none

/-- An invitation that has its answer is not accepted again. -/
theorem countP_marks_of_answered (hAnswered : st.Answered name) (hReads : st.ReadsInvitations)
    (hSteps : ∀ step ∈ steps, step.IsSound ∧ step.SparesInvitation name) :
    (attempts config name steps st).countP (marks config name) = 0 := by
  induction steps generalizing st with
  | nil => rfl
  | cons step steps ih =>
    obtain ⟨⟨hSound, hSpares⟩, hRest⟩ := List.forall_mem_cons.1 hSteps
    rcases accepts_or_ne name step with ⟨call, rfl⟩ | hOther
    · have hFails : problem? (runOn (marking config call name) st).1 ≠ none :=
        hAnswered.marking_fails hReads
      obtain ⟨e, hRun⟩ := ApiState.accept_of_marking_fails hReads hFails
      -- The call fails and does nothing, so the invitation still has its answer.
      have hSame : after config st (.accept call name) = st := congrArg Prod.snd hRun
      have hMarks : ¬ marks config name (call, st) = true :=
        mt (marks_iff config name call st).1 hFails
      rw [attempts_accept, List.countP_cons_of_neg hMarks, hSame]
      exact ih hAnswered hReads hRest
    · rw [attempts_of_ne hOther]
      exact ih (hAnswered.congr (invitation_get?_after hReads hSound hSpares hOther))
        (readsInvitations_after config hReads hSound) hRest

theorem countP_marks_le_one (hReads : st.ReadsInvitations)
    (hSteps : ∀ step ∈ steps, step.IsSound ∧ step.SparesInvitation name) :
    (attempts config name steps st).countP (marks config name) ≤ 1 := by
  induction steps generalizing st with
  | nil => exact Nat.zero_le 1
  | cons step steps ih =>
    obtain ⟨⟨hSound, hSpares⟩, hRest⟩ := List.forall_mem_cons.1 hSteps
    have hReadsAfter := readsInvitations_after config hReads hSound
    rcases accepts_or_ne name step with ⟨call, rfl⟩ | hOther
    · rw [attempts_accept]
      by_cases hMarks : marks config name (call, st) = true
      · -- This call has used the invitation up: no later one gets past its first step.
        cases hSound with
        | accept _ hTime =>
          have hAnswered : (after config st (.accept call name)).Answered name :=
            ApiState.answered_of_marking hReads hTime ((marks_iff config name call st).1 hMarks)
          rw [List.countP_cons_of_pos hMarks, countP_marks_of_answered hAnswered hReadsAfter hRest]
      · rw [List.countP_cons_of_neg hMarks]
        exact ih hReadsAfter hRest
    · rw [attempts_of_ne hOther]
      exact ih hReadsAfter hRest

/-- A call that gives a membership has got past its first step. -/
theorem marks_of_joins {call : Call} (hReads : st.ReadsInvitations)
    (hJoins : joins config name (call, st) = true) : marks config name (call, st) = true := by
  by_contra hFails
  obtain ⟨e, hRun⟩ := ApiState.accept_of_marking_fails hReads
    (mt (marks_iff config name call st).2 hFails)
  simp only [joins, hRun] at hJoins
  cases hJoins

theorem memberships_of_not_joins {call : Call} (hReads : st.ReadsInvitations)
    (hTime : call.time.IsValid) (hFails : joins config name (call, st) = false) :
    (runOn ((ResourceApi.inMemory config).acceptInvitation call name) st).2.memberships =
      st.memberships := by
  have hOutcome := ApiState.accept_outcome config name hReads hTime
  rw [joins] at hFails
  rcases hRun : runOn ((ResourceApi.inMemory config).acceptInvitation call name) st with
    ⟨result, st'⟩
  rw [hRun] at hOutcome hFails
  cases hOutcome with
  | refused => rfl
  | joined => cases hFails
  | unfinished _ _ _ _ _ _ hMemberships => exact hMemberships

end ApiStep

/-- In every state that the API can come to, and at any time, a call that accepts an invitation ends
in one of the listed ways.  Whatever happens from then on, as long as the invitation is written in
no other way: of all calls that accept it at most one gets past the first step, at most one gives a
membership, and the others add none. -/
theorem invitation_used_at_most_once (config : StoreConfig) (grants : GrantTable)
    (steps : List ApiStep) (hSteps : ∀ step ∈ steps, step.IsSound) :
    let api := ResourceApi.inMemory config
    let st := ApiStep.run config steps (.fresh config grants)
    (∀ call name, call.time.IsValid →
      ApiState.AcceptOutcome config call name st (runOn (api.acceptInvitation call name) st)) ∧
    ∀ name later, (∀ step ∈ later, step.IsSound ∧ step.SparesInvitation name) →
      let attempts := ApiStep.attempts config name later st
      attempts.countP (ApiStep.marks config name) ≤ 1 ∧
      attempts.countP (ApiStep.joins config name) ≤ 1 ∧
      ∀ attempt ∈ attempts, ApiStep.joins config name attempt = false →
        (runOn (api.acceptInvitation attempt.1 name) attempt.2).2.memberships =
          attempt.2.memberships := by
  intro api st
  have hReads : st.ReadsInvitations :=
    ApiStep.readsInvitations_run (ApiState.readsInvitations_fresh config grants) hSteps
  refine ⟨fun call name hTime => ApiState.accept_outcome config name hReads hTime, ?_⟩
  intro name later hLater attempts
  have hBegin : ∀ attempt ∈ attempts, attempt.2.ReadsInvitations ∧ attempt.1.time.IsValid :=
    ApiStep.of_mem_attempts hReads fun step hMem => (hLater step hMem).1
  have hMarks : attempts.countP (ApiStep.marks config name) ≤ 1 :=
    ApiStep.countP_marks_le_one hReads hLater
  refine ⟨hMarks, ?_, fun attempt hMem hFails => ?_⟩
  · refine Nat.le_trans (List.countP_mono_left fun attempt hMem hJoins => ?_) hMarks
    exact ApiStep.marks_of_joins (hBegin attempt hMem).1 hJoins
  · obtain ⟨hReadsThen, hTime⟩ := hBegin attempt hMem
    exact ApiStep.memberships_of_not_joins hReadsThen hTime hFails

def Invitation.toAcme : Invitation :=
  ⟨"acme", "carol@example.com", .member, "alice", .pending, ⟨100, 0⟩⟩

def ApiStep.inviting : List ApiStep :=
  [.invitation (.bySuperuser "alice" "1") (.one (.write (.create (.named "welcome" .toAcme))))]

def ApiStep.answering : List ApiStep :=
  [.accept (.bySuperuser "carol" "2") "welcome", .accept (.bySuperuser "dave" "3") "welcome"]

/-- The first of the two gets the membership. -/
theorem invitation_used_at_most_once_welcome :
    let st := ApiStep.run {} ApiStep.inviting (.fresh {} (.empty ["root"]))
    let attempts := ApiStep.attempts {} "welcome" ApiStep.answering st
    (∀ step ∈ ApiStep.inviting, step.IsSound) ∧
    (∀ step ∈ ApiStep.answering, step.IsSound ∧ step.SparesInvitation "welcome") ∧
    attempts.length = 2 ∧ attempts.countP (ApiStep.joins {} "welcome") = 1 ∧
    (ApiStep.run {} ApiStep.answering st).memberships.keys = ["acme-carol"] ∧
    attempts.countP (ApiStep.marks {} "welcome") ≤ 1 := by
  intro st attempts
  have hInviting : ∀ step ∈ ApiStep.inviting, step.IsSound := by
    refine List.forall_mem_singleton.2 (.invitation _ fun _ => ?_)
    change Time.IsValid _
    decide
  have hAnswering : ∀ step ∈ ApiStep.answering, step.IsSound ∧ step.SparesInvitation "welcome" := by
    simp only [ApiStep.answering, List.forall_mem_cons]
    refine ⟨⟨.accept _ ?_, trivial⟩, ⟨.accept _ ?_, trivial⟩, List.forall_mem_nil _⟩ <;> decide
  obtain ⟨-, hOnce⟩ := invitation_used_at_most_once {} (.empty ["root"]) ApiStep.inviting hInviting
  obtain ⟨hMarks, -, -⟩ := hOnce "welcome" ApiStep.answering hAnswering
  exact ⟨hInviting, hAnswering, rfl, by decide +kernel, by decide +kernel, hMarks⟩

end Tenancy
