import Tenancy.Proofs.Access.Decision
import Tenancy.Proofs.Access.GrantTable

/-!
# The rule of decisions

A table of grants that has been written to in any way decides by one rule (`GrantTable.Allows`),
told by what is stored: which roles there are, which bindings, and whom they are for.  How the table
came to store them makes no difference, so decisions change with the grants and with nothing else.

* `GrantTable.Within`: the grants of one table are among those of another; then everything that the
  first one allows is allowed by the second.
* `GrantTable.Keyed.applyAll`: every write keeps grants under their own names.
* `table_decides_by_rule`: the rule, and what follows from it for writes.
-/

namespace Tenancy

/-! ## The rule -/

/-- The permission answers the request: it is for the collection, with the verb or for all verbs,
and for the object of the request or for all objects. -/
structure Permission.Answers (p : Permission) (q : AccessRequest) : Prop where
  collection : p.collection = q.coordinates.collection
  verb : p.verb = .all ∨ p.verb = q.verb
  name : p.name = none ∨ p.name = q.coordinates.name

/-- The binding is for the actor: the subject is one of the actor's groups after "group:", or it
does not begin so and is the name of the actor. -/
def RoleBinding.IsFor (b : RoleBinding) (actor : Actor) : Prop :=
  (∃ group ∈ actor.groups, b.subject = "group:" ++ group) ∨
    (¬ ∃ group, b.subject = "group:" ++ group) ∧ b.subject = actor.name

namespace GrantTable

/-- A stored role of the name that the binding gives has a permission that answers the request. -/
def Backs (t : GrantTable) (b : RoleBinding) (q : AccessRequest) : Prop :=
  ∃ role ∈ t.roles.values, role.name = b.role ∧ ∃ p ∈ role.permissions.toList, p.Answers q

def Allows (t : GrantTable) (superusers : List String) (q : AccessRequest) : Prop :=
  (∃ group ∈ q.actor.groups, group ∈ superusers) ∨
    ∃ b ∈ t.bindings.values, b.IsFor q.actor ∧ t.Backs b q

end GrantTable

theorem Permission.covers_required_iff {p : Permission} {q : AccessRequest} :
    p.covers q.required = true ↔ p.Answers q := by
  rw [covers_iff]
  exact ⟨fun ⟨hCollection, hVerb, hName⟩ => ⟨hCollection, hVerb, hName⟩,
    fun h => ⟨h.collection, h.verb, h.name⟩⟩

theorem RoleBinding.appliesTo_iff {b : RoleBinding} {actor : Actor} :
    b.appliesTo actor = true ↔ b.IsFor actor := by
  by_cases hGroup : ∃ group, b.subject = groupSubject group
  · obtain ⟨group, hSubject⟩ := hGroup
    rw [appliesTo_group hSubject, Actor.isIn, List.contains_iff_mem]
    constructor
    · exact fun hMem => .inl ⟨group, hMem, hSubject⟩
    · rintro (⟨other, hMem, hOther⟩ | ⟨hNone, -⟩)
      · have hSame : groupSubject group = groupSubject other := hSubject.symm.trans hOther
        obtain rfl : group = other := by simpa [groupSubject] using hSame
        exact hMem
      · exact absurd ⟨group, hSubject⟩ hNone
  · rw [appliesTo_actor fun group hSubject => hGroup ⟨group, hSubject⟩]
    constructor
    · exact fun hName => .inr ⟨hGroup, hName.symm⟩
    · rintro (⟨group, -, hSubject⟩ | ⟨-, hName⟩)
      · exact absurd ⟨group, hSubject⟩ hGroup
      · exact hName.symm

namespace GrantTable

variable {t u : GrantTable} {superusers : List String} {q : AccessRequest}

/-! ## Tables with grants under their own names -/

/-- Roles and bindings are stored under their own names. -/
structure Keyed (t : GrantTable) : Prop where
  roles : ∀ name role, t.roles.get? name = some role → role.name = name
  bindings : ∀ name b, t.bindings.get? name = some b → b.name = name

theorem keyed_empty (superusers : List String) : (empty superusers).Keyed where
  roles _ _ hGet := by cases hGet
  bindings _ _ hGet := by cases hGet

/-- A write keeps grants under their own names, and the groups whose members may do everything. -/
theorem Keyed.apply (h : t.Keyed) (w : GrantWrite) :
    (w.apply t).2.Keyed ∧ (w.apply t).2.superusers = t.superusers := by
  have hOutcome := w.apply_outcome t
  generalize w.apply t = outcome at hOutcome
  cases hOutcome with
  | failed => exact ⟨h, rfl⟩
  | roleCreated => exact ⟨⟨SortedMap.forall_get?_insert h.roles rfl, h.bindings⟩, rfl⟩
  | roleDeleted => exact ⟨⟨SortedMap.forall_get?_erase h.roles, h.bindings⟩, rfl⟩
  | bindingCreated => exact ⟨⟨h.roles, SortedMap.forall_get?_insert h.bindings rfl⟩, rfl⟩
  | bindingDeleted => exact ⟨⟨h.roles, SortedMap.forall_get?_erase h.bindings⟩, rfl⟩

theorem Keyed.applyAll (h : t.Keyed) (writes : List GrantWrite) :
    (GrantWrite.applyAll writes t).Keyed ∧
      (GrantWrite.applyAll writes t).superusers = t.superusers := by
  induction writes generalizing t with
  | nil => exact ⟨h, rfl⟩
  | cons w writes ih =>
    obtain ⟨hNext, hSame⟩ := h.apply w
    obtain ⟨hEnd, hSameEnd⟩ := ih hNext
    exact ⟨hEnd, hSameEnd.trans hSame⟩

/-! ## Decisions by the rule -/

theorem Keyed.gives_iff (h : t.Keyed) {b : RoleBinding} :
    t.Gives b q.actor q.required ↔ b.IsFor q.actor ∧ t.Backs b q := by
  rw [Gives, RoleBinding.appliesTo_iff]
  refine and_congr_right fun _ => ?_
  simp only [PermissionSet.has_iff, Permission.covers_required_iff]
  constructor
  · rintro ⟨role, hGet, hHas⟩
    exact ⟨role, SortedMap.mem_values.2 ⟨_, hGet⟩, h.roles _ role hGet, hHas⟩
  · rintro ⟨role, hMem, hName, hHas⟩
    exact ⟨role, hName ▸ (SortedMap.mem_values_iff_get? h.roles).1 hMem, hHas⟩

theorem Keyed.decide_iff (h : t.Keyed) : t.decide q = .allow ↔ t.Allows t.superusers q := by
  have hSuper : t.IsSuperuser q.actor ↔ ∃ group ∈ q.actor.groups, group ∈ t.superusers := by
    rw [IsSuperuser, List.any_eq_true]
    simp only [List.contains_iff_mem]
  rw [decide_eq_allow_iff, hSuper, Allows]
  simp only [h.gives_iff]

structure Within (t u : GrantTable) : Prop where
  roles : ∀ role ∈ t.roles.values, role ∈ u.roles.values
  bindings : ∀ b ∈ t.bindings.values, b ∈ u.bindings.values

theorem Within.allows (h : t.Within u) (hAllows : t.Allows superusers q) :
    u.Allows superusers q := by
  rcases hAllows with hSuper | ⟨b, hMem, hFor, role, hRole, hBacked⟩
  · exact .inl hSuper
  · exact .inr ⟨b, h.bindings b hMem, hFor, role, h.roles role hRole, hBacked⟩

/-- What is created is added to the grants that there are, what is deleted is taken from them. -/
theorem within_apply {w : GrantWrite} (hSucceeds : (w.apply t).1 = .ok ()) :
    (w.IsCreation → t.Within (w.apply t).2) ∧ (¬ w.IsCreation → (w.apply t).2.Within t) := by
  have hOutcome := w.apply_outcome t
  generalize w.apply t = outcome at hSucceeds hOutcome
  cases hOutcome with
  | failed => cases hSucceeds
  | roleCreated role hFree =>
    refine ⟨fun _ => ⟨fun other hMem => ?_, fun _ => id⟩, fun hNot => absurd trivial hNot⟩
    exact (SortedMap.mem_values_insert hFree).2 (.inr hMem)
  | roleDeleted =>
    exact ⟨False.elim, fun _ => ⟨fun _ => SortedMap.mem_values_of_erase, fun _ => id⟩⟩
  | bindingCreated b hFree =>
    refine ⟨fun _ => ⟨fun _ => id, fun other hMem => ?_⟩, fun hNot => absurd trivial hNot⟩
    exact (SortedMap.mem_values_insert hFree).2 (.inr hMem)
  | bindingDeleted =>
    exact ⟨False.elim, fun _ => ⟨fun _ => id, fun _ => SortedMap.mem_values_of_erase⟩⟩

/-- Between two tables that allow the same superusers everything, more grants allow more. -/
theorem Within.decide (h : t.Within u) (hKeyed : t.Keyed) (hKeyed' : u.Keyed)
    (hSame : t.superusers = u.superusers) (hAllow : t.decide q = .allow) :
    u.decide q = .allow :=
  hKeyed'.decide_iff.2 (hSame ▸ h.allows (hKeyed.decide_iff.1 hAllow))

/-- A binding to a role that is not there makes no difference. -/
theorem Keyed.decide_without (h : t.Keyed) {b : RoleBinding} (hStored : b ∈ t.bindings.values)
    (hMissing : ∀ role ∈ t.roles.values, role.name ≠ b.role) (q : AccessRequest) :
    { t with bindings := t.bindings.erase b.name }.decide q = t.decide q := by
  have hLess : { t with bindings := t.bindings.erase b.name }.Within t :=
    ⟨fun _ => id, fun _ => SortedMap.mem_values_of_erase⟩
  have hKeyed : { t with bindings := t.bindings.erase b.name }.Keyed :=
    ⟨h.roles, SortedMap.forall_get?_erase h.bindings⟩
  refine decide_congr ⟨hLess.decide hKeyed h rfl, fun hAllow => hKeyed.decide_iff.2 ?_⟩
  rcases h.decide_iff.1 hAllow with hSuper | ⟨other, hMem, hFor, role, hRole, hName, hBacked⟩
  · exact .inl hSuper
  · refine .inr ⟨other, SortedMap.mem_values.2 ⟨other.name, ?_⟩, hFor, role, hRole, hName, hBacked⟩
    -- the binding that allows the request is another one, as its role is there
    have hOther := (SortedMap.mem_values_iff_get? h.bindings).1 hMem
    rw [SortedMap.get?_erase_of_ne, hOther]
    intro hSame
    rw [hSame, (SortedMap.mem_values_iff_get? h.bindings).1 hStored] at hOther
    exact hMissing role hRole (Option.some.inj hOther ▸ hName)

end GrantTable

open GrantWrite (applyAll) in
/-- **A table of grants decides by the rule, whatever was written to it.**  Asked about a request,
it answers `allow` if the rule allows the request, else it denies it; it never fails, and answering
changes nothing.  In which order the bindings are gone through makes no difference.  So tables that
have come to the same roles and bindings on different ways decide alike; a creation takes away no
permission and a deletion gives none; a write that fails changes nothing; and a binding whose role
is missing gives nothing, while everything in a role of its name is given to those it is for. -/
theorem table_decides_by_rule (superusers : List String) (writes : List GrantWrite) :
    let t := applyAll writes (.empty superusers)
    (∀ q, t.Allows superusers q ∧
        runOn (GrantTable.authorizer Cell.whole q) t = (.ok .allow, t) ∨
      ¬ t.Allows superusers q ∧
        ∃ reason, runOn (GrantTable.authorizer Cell.whole q) t = (.ok (.deny reason), t)) ∧
    (∀ actor (order : List RoleBinding), order.Perm t.bindings.values →
      order.foldl (fun s b => s.union (t.granted actor b)) ∅ = t.permissionsOf actor) ∧
    (∀ others, let u := applyAll others (.empty superusers)
      (∀ role, role ∈ t.roles.values ↔ role ∈ u.roles.values) →
      (∀ b, b ∈ t.bindings.values ↔ b ∈ u.bindings.values) → ∀ q, t.decide q = u.decide q) ∧
    (∀ w : GrantWrite, (w.apply t).1 = .ok () → ∀ q,
      (w.IsCreation → t.decide q = .allow → (w.apply t).2.decide q = .allow) ∧
      (¬ w.IsCreation → (w.apply t).2.decide q = .allow → t.decide q = .allow)) ∧
    (∀ (w : GrantWrite) e, (w.apply t).1 = .error e → (w.apply t).2 = t) ∧
    ∀ b ∈ t.bindings.values,
      ((∀ role ∈ t.roles.values, role.name ≠ b.role) → ∀ q,
        { t with bindings := t.bindings.erase b.name }.decide q = t.decide q) ∧
      ∀ role ∈ t.roles.values, role.name = b.role → ∀ q, b.IsFor q.actor →
        (∃ p ∈ role.permissions.toList, p.Answers q) → t.decide q = .allow := by
  intro t
  obtain ⟨hKeyed, hSuper⟩ : t.Keyed ∧ t.superusers = superusers :=
    (GrantTable.keyed_empty superusers).applyAll writes
  have hRule : ∀ q, t.decide q = .allow ↔ t.Allows superusers q := fun q =>
    hSuper ▸ hKeyed.decide_iff
  refine ⟨fun q => ?_, fun actor order hPerm => ?_, fun others => ?_, fun w hSucceeds q => ?_,
    fun w e hFails => ?_, fun b hStored => ⟨fun hMissing q => ?_, ?_⟩⟩
  · have hAnswer : runOn (GrantTable.authorizer Cell.whole q) t = (.ok (t.decide q), t) := rfl
    rw [hAnswer]
    by_cases hAllow : t.decide q = .allow
    · exact .inl ⟨(hRule q).1 hAllow, by rw [hAllow]⟩
    · exact .inr ⟨fun hAllows => hAllow ((hRule q).2 hAllows), _,
        by rw [GrantTable.decide_eq_deny hAllow]⟩
  · exact PermissionSet.foldl_union_perm hPerm
  · intro u hRoles hBindings q
    obtain ⟨hKeyed', hSuper'⟩ : u.Keyed ∧ u.superusers = superusers :=
      (GrantTable.keyed_empty superusers).applyAll others
    have hThere : t.Within u := ⟨fun role => (hRoles role).1, fun b => (hBindings b).1⟩
    have hBack : u.Within t := ⟨fun role => (hRoles role).2, fun b => (hBindings b).2⟩
    have hSame : t.superusers = u.superusers := hSuper.trans hSuper'.symm
    exact GrantTable.decide_congr
      ⟨hThere.decide hKeyed hKeyed' hSame, hBack.decide hKeyed' hKeyed hSame.symm⟩
  · obtain ⟨hNext, hSame⟩ := hKeyed.apply w
    obtain ⟨hMore, hLess⟩ := GrantTable.within_apply hSucceeds
    exact ⟨fun hCreation => (hMore hCreation).decide hKeyed hNext hSame.symm,
      fun hDeletion => (hLess hDeletion).decide hNext hKeyed hSame⟩
  · have hOutcome := w.apply_outcome t
    generalize w.apply t = outcome at hFails hOutcome
    cases hOutcome with
    | failed => rfl
    | _ => cases hFails
  · exact hKeyed.decide_without hStored hMissing q
  · intro role hRole hName q hFor hAnswers
    exact (hRule q).2 (.inr ⟨b, hStored, hFor, role, hRole, hName, hAnswers⟩)

/-! ## A role that comes and goes -/

def Role.editor : Role := ⟨"editor", .singleton (.named .organization .update "acme"), ⟨0, 0⟩⟩

def RoleBinding.toEditors : RoleBinding := ⟨"devs-edit", "editor", "group:devs", ⟨0, 0⟩⟩

/-- The role is taken away while it is bound, and two of the writes fail. -/
def GrantWrite.orphaning : List GrantWrite :=
  [.createRole .editor, .createBinding .toEditors, .createBinding .toEditors, .deleteRole "editor",
    .deleteRole "editor"]

theorem table_decides_by_rule_orphaned :
    let t := GrantWrite.applyAll GrantWrite.orphaning (.empty ["root"])
    let again := GrantWrite.createRole .editor
    let change : AccessRequest :=
      .forName ⟨"bob", ["devs", "staff", "devs"]⟩ .update .organization "acme"
    (again.apply t).1 = .ok () ∧ t.decide change ≠ .allow ∧
      { t with bindings := t.bindings.erase "devs-edit" }.decide change = t.decide change ∧
      (again.apply t).2.decide change = .allow := by
  intro t again change
  have hMissing : ∀ role ∈ t.roles.values, role.name ≠ "editor" := by decide +kernel
  obtain ⟨-, -, -, -, -, hOrphaned⟩ := table_decides_by_rule ["root"] GrantWrite.orphaning
  obtain ⟨-, -, -, -, -, hBound⟩ :=
    table_decides_by_rule ["root"] (GrantWrite.orphaning ++ [again])
  have hDevs : RoleBinding.toEditors.IsFor change.actor :=
    .inl ⟨"devs", by decide, by decide⟩
  refine ⟨by decide +kernel, by decide +kernel,
    (hOrphaned .toEditors (by decide +kernel)).1 hMissing change,
    (hBound .toEditors (by decide +kernel)).2 .editor (by decide +kernel) rfl change hDevs ?_⟩
  exact ⟨.named .organization .update "acme", by decide +kernel, rfl, .inr rfl, .inr rfl⟩

end Tenancy
