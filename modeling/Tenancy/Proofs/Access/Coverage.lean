import Tenancy.Proofs.Access.PermissionSet

/-!
# Coverage as an order

Coverage compares collection, verb and name, each by a rule of its own: the same collection; the
wildcard above every other verb; no name above every name.  All three are orders, and so is coverage
(`Permission.covers_trans`, `Permission.covers_antisymm`).  A set grants what lies below one of its
members, so all that is done with sets can be told from their members
(`permission_sets_close_members`).
-/

namespace Tenancy

section

variable {α : Type} {top a b c : α}

/-- What is the greatest of all or the same is above: this is transitive. -/
theorem eq_top_or_eq_trans (h : a = top ∨ a = b) (h' : b = top ∨ b = c) : a = top ∨ a = c := by
  rcases h with hTop | rfl
  · exact .inl hTop
  · exact h'

theorem eq_of_top_or_eq (h : a = top ∨ a = b) (h' : b = top ∨ b = a) : a = b := by
  rcases h with rfl | hSame
  · rcases h' with hTop | hSame
    · exact hTop.symm
    · exact hSame.symm
  · exact hSame

end

namespace Permission

variable {p q r : Permission}

theorem covers_trans (hFirst : p.covers q = true) (hSecond : q.covers r = true) :
    p.covers r = true := by
  obtain ⟨hCollection, hVerb, hName⟩ := covers_iff.1 hFirst
  obtain ⟨hCollection', hVerb', hName'⟩ := covers_iff.1 hSecond
  exact covers_iff.2 ⟨hCollection.trans hCollection', eq_top_or_eq_trans hVerb hVerb',
    eq_top_or_eq_trans hName hName'⟩

theorem covers_antisymm (hFirst : p.covers q = true) (hSecond : q.covers p = true) : p = q := by
  obtain ⟨hCollection, hVerb, hName⟩ := covers_iff.1 hFirst
  obtain ⟨-, hVerb', hName'⟩ := covers_iff.1 hSecond
  have hVerbs := eq_of_top_or_eq hVerb hVerb'
  have hNames := eq_of_top_or_eq hName hName'
  cases p
  cases q
  cases hCollection
  cases hVerbs
  cases hNames
  rfl

/-- A permission for one name covers no request for all objects. -/
theorem not_covers_of_named (hNamed : p.isGlobal = false) (hAll : q.name = none) :
    p.covers q = false := by
  rw [← Bool.not_eq_true, covers_iff]
  rintro ⟨-, -, hName⟩
  rw [hAll, or_self_iff] at hName
  rw [isGlobal, hName] at hNamed
  cases hNamed

end Permission

namespace PermissionSet

variable {s t : PermissionSet} {p q : Permission}

theorem has_eq_any : s.has q = s.toList.any (·.covers q) := by
  rw [Bool.eq_iff_iff, has_iff, List.any_eq_true]

theorem has_union : (s.union t).has q = true ↔ s.has q = true ∨ t.has q = true := by
  simp only [has_iff, mem_union, or_and_right, exists_or]

theorem mem_erase : p ∈ (s.erase q).toList ↔ p ≠ q ∧ p ∈ s.toList := by
  rw [mem_toList, mem_toList, contains, erase, SortedMap.contains_erase_iff, contains]

theorem has_erase : (s.erase p).has q = true ↔ ∃ r ∈ s.toList, r ≠ p ∧ r.covers q = true := by
  rw [has_iff]
  constructor
  · rintro ⟨r, hMem, hCovers⟩
    obtain ⟨hNe, hBefore⟩ := mem_erase.1 hMem
    exact ⟨r, hBefore, hNe, hCovers⟩
  · rintro ⟨r, hBefore, hNe, hCovers⟩
    exact ⟨r, mem_erase.2 ⟨hNe, hBefore⟩, hCovers⟩

theorem union_comm (s t : PermissionSet) : s.union t = t.union s :=
  ext_mem fun p => by rw [mem_union, mem_union, or_comm]

theorem union_assoc (s t w : PermissionSet) : (s.union t).union w = s.union (t.union w) :=
  ext_mem fun p => by simp only [mem_union, or_assoc]

theorem union_self (s : PermissionSet) : s.union s = s :=
  ext_mem fun p => by rw [mem_union, or_self_iff]

/-- The order in which permissions are added makes no difference, and neither does repetition. -/
theorem insertAll_congr {ps qs : List Permission} (hSame : ∀ p, p ∈ ps ↔ p ∈ qs) :
    s.insertAll ps = s.insertAll qs :=
  ext_mem fun p => by rw [mem_insertAll, mem_insertAll, hSame]

theorem ofList_eq {ps : List Permission} (hSame : ∀ p, p ∈ ps ↔ p ∈ s.toList) : ofList ps = s :=
  ext_mem fun p => by rw [ofList, mem_insertAll, hSame, or_iff_right not_mem_empty]

/-- A set grants exactly what its members cover, and every change of a set shows in what its members
are then. -/
structure ClosesMembers (s : PermissionSet) : Prop where
  has_iff : ∀ q, s.has q = true ↔ ∃ p ∈ s.toList, p.covers q = true
  /-- Looking for the permission itself first makes no difference. -/
  has_eq_any : ∀ q, s.has q = s.toList.any (·.covers q)
  downward : ∀ p q, s.has p = true → p.covers q = true → s.has q = true
  has_union : ∀ t q, (s.union t).has q = true ↔ s.has q = true ∨ t.has q = true
  union_comm : ∀ t, s.union t = t.union s
  union_assoc : ∀ t w, (s.union t).union w = s.union (t.union w)
  union_self : s.union s = s
  insertAll_congr : ∀ ps qs, (∀ p, p ∈ ps ↔ p ∈ qs) → s.insertAll ps = s.insertAll qs
  ofList_eq : ∀ ps, (∀ p, p ∈ ps ↔ p ∈ s.toList) → ofList ps = s
  named : (∀ p ∈ s.toList, p.isGlobal = false) → ∀ q, q.name = none → s.has q = false
  has_erase : ∀ p q, (s.erase p).has q = true ↔ ∃ r ∈ s.toList, r ≠ p ∧ r.covers q = true

theorem closesMembers (s : PermissionSet) : s.ClosesMembers where
  has_iff _ := has_iff
  has_eq_any _ := has_eq_any
  downward p q hHas hCovers := by
    obtain ⟨r, hMem, hAbove⟩ := has_iff.1 hHas
    exact has_iff.2 ⟨r, hMem, Permission.covers_trans hAbove hCovers⟩
  has_union _ _ := has_union
  union_comm := union_comm s
  union_assoc := union_assoc s
  union_self := union_self s
  insertAll_congr _ _ := insertAll_congr
  ofList_eq _ := ofList_eq
  named hNamed q hAll := by
    rw [← Bool.not_eq_true, has_iff]
    rintro ⟨p, hMem, hCovers⟩
    rw [Permission.not_covers_of_named (hNamed p hMem) hAll] at hCovers
    cases hCovers
  has_erase _ _ := has_erase

end PermissionSet

/-- **Coverage is a partial order, and a set of permissions grants what lies below its members.** -/
theorem permission_sets_close_members :
    (∀ p : Permission, p.covers p = true) ∧
      (∀ p q r : Permission, p.covers q = true → q.covers r = true → p.covers r = true) ∧
      (∀ p q : Permission, p.covers q = true → q.covers p = true → p = q) ∧
      ∀ s : PermissionSet, s.ClosesMembers :=
  ⟨Permission.covers_self, fun _ _ _ => Permission.covers_trans,
    fun _ _ => Permission.covers_antisymm, PermissionSet.closesMembers⟩

end Tenancy
