import Tenancy.Access.GrantTable
import Tenancy.Proofs.Access.PermissionSet

/-!
# What a table of grants decides

A table allows a request for two reasons only: a group of the actor may do everything, or some
binding that applies to the actor gives a role that has the required permission.

* `subjectGroup?_eq_some_iff`: the subjects that stand for groups.
* `GrantTable.decide_eq_allow_iff`: the two reasons.
* `GrantTable.decide_congr`: which of the two answers is given decides the whole answer.
-/

namespace Tenancy

/-! ## Subjects -/

theorem afterMark?_eq_some_iff {mark cs rest : List Char} :
    afterMark? mark cs = some rest ↔ cs = mark ++ rest := by
  induction mark generalizing cs with
  | nil => simp [afterMark?]
  | cons m mark ih =>
    cases cs with
    | nil => simp [afterMark?]
    | cons c cs =>
      rw [afterMark?]
      split
      · rename_i hEq
        simp [ih, hEq]
      · rename_i hNe
        simp [Ne.symm hNe]

theorem subjectGroup?_eq_some_iff {subject group : String} :
    subjectGroup? subject = some group ↔ subject = groupSubject group := by
  rw [subjectGroup?, Option.map_eq_some_iff, groupSubject]
  constructor
  · rintro ⟨rest, hAfter, rfl⟩
    rw [← String.toList_inj, String.toList_append, String.toList_ofList]
    exact afterMark?_eq_some_iff.1 hAfter
  · rintro rfl
    exact ⟨group.toList, afterMark?_eq_some_iff.2 String.toList_append, String.ofList_toList⟩

namespace RoleBinding

variable {b : RoleBinding} {actor : Actor}

theorem appliesTo_group {group : String} (hSubject : b.subject = groupSubject group) :
    b.appliesTo actor = actor.isIn group := by
  rw [appliesTo, subjectGroup?_eq_some_iff.2 hSubject]

theorem appliesTo_actor (hSubject : ∀ group, b.subject ≠ groupSubject group) :
    b.appliesTo actor = true ↔ actor.name = b.subject := by
  have hNone : subjectGroup? b.subject = none :=
    Option.eq_none_iff_forall_ne_some.2 fun group hGroup =>
      hSubject group (subjectGroup?_eq_some_iff.1 hGroup)
  rw [appliesTo, hNone, decide_eq_true_iff, eq_comm]

end RoleBinding

/-! ## Decisions -/

namespace GrantTable

variable {t u : GrantTable} {actor : Actor} {q : AccessRequest}

/-- A binding gives the actor a role that has the permission. -/
def Gives (t : GrantTable) (b : RoleBinding) (actor : Actor) (required : Permission) : Prop :=
  b.appliesTo actor = true ∧
    ∃ role, t.roles.get? b.role = some role ∧ role.permissions.has required = true

def IsSuperuser (t : GrantTable) (actor : Actor) : Prop :=
  actor.groups.any t.superusers.contains = true

theorem has_granted {b : RoleBinding} {required : Permission} :
    (t.granted actor b).has required = true ↔ t.Gives b actor required := by
  rw [granted, Gives]
  split
  · rename_i hApplies
    rw [and_iff_right hApplies]
    cases t.roles.get? b.role with
    | none => simp
    | some role => simp
  · rename_i hNot
    simp [hNot]

theorem has_permissionsOf {required : Permission} :
    (t.permissionsOf actor).has required = true ↔
      ∃ b ∈ t.bindings.values, t.Gives b actor required := by
  rw [permissionsOf, PermissionSet.has_foldl_union]
  simp only [has_granted]

theorem decide_eq_allow_iff : t.decide q = .allow ↔
    t.IsSuperuser q.actor ∨ ∃ b ∈ t.bindings.values, t.Gives b q.actor q.required := by
  rw [← has_permissionsOf, decide, IsSuperuser]
  split
  · rename_i hSuper
    simp [hSuper]
  · rename_i hSuper
    rw [or_iff_right hSuper]
    split
    · rename_i hHas
      simp [hHas]
    · rename_i hHas
      simp [hHas]

/-- The reason of a denial tells of the request only. -/
theorem decide_eq_deny (hNot : t.decide q ≠ .allow) : t.decide q =
    .deny ("no role bound to \"" ++ q.actor.name ++ "\" grants " ++ q.required.text) := by
  rw [decide] at hNot ⊢
  split
  · rename_i hSuper
    rw [if_pos hSuper] at hNot
    exact absurd rfl hNot
  · rename_i hSuper
    rw [if_neg hSuper] at hNot
    split
    · rename_i hHas
      rw [if_pos hHas] at hNot
      exact absurd rfl hNot
    · rfl

theorem decide_congr (hSame : t.decide q = .allow ↔ u.decide q = .allow) :
    t.decide q = u.decide q := by
  by_cases hAllow : t.decide q = .allow
  · rw [hAllow, hSame.1 hAllow]
  · rw [decide_eq_deny hAllow, decide_eq_deny fun h => hAllow (hSame.2 h)]

end GrantTable

end Tenancy
