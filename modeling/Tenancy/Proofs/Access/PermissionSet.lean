import Tenancy.Access.PermissionSet
import Tenancy.Proofs.SortedMap

/-!
# Asking sets of permissions

A set has a requested permission exactly if some member covers it.  What is known of a union is
therefore known from its parts, in whatever order they were put together.

* `PermissionSet.foldl_union_perm`: the order of a union makes no difference.
* `PermissionSet.has_iff`: looking for the permission itself first makes no difference.
* `PermissionSet.has_foldl_union`: a union of many sets has what one of them has.
-/

namespace Tenancy

theorem Verb.implies_self (v : Verb) : v.implies v = true := by simp [Verb.implies]

theorem Verb.all_implies (v : Verb) : Verb.all.implies v = true := by simp [Verb.implies]

theorem Permission.covers_self (p : Permission) : p.covers p = true := by
  cases hName : p.name <;> simp [Permission.covers, Verb.implies_self, hName]

theorem Permission.covers_iff {granted requested : Permission} :
    granted.covers requested = true ↔ granted.collection = requested.collection ∧
      (granted.verb = .all ∨ granted.verb = requested.verb) ∧
      (granted.name = none ∨ granted.name = requested.name) := by
  rw [covers, Verb.implies]
  cases granted.name <;> cases requested.name <;> simp [and_assoc]

/-- A permission for everything about one object covers the requests that name the object. -/
theorem Permission.named_all_covers_iff {collection : Collection} {name : String}
    {q : Permission} : (Permission.named collection .all name).covers q = true ↔
      q.collection = collection ∧ q.name = some name := by
  rw [Permission.covers, Permission.named, Verb.all_implies, Bool.and_true, Bool.and_eq_true,
    decide_eq_true_iff, eq_comm (a := collection)]
  refine and_congr_right fun _ => ?_
  cases hName : q.name with
  | none => simp
  | some other =>
    rw [decide_eq_true_iff, Option.some_inj]
    exact eq_comm

namespace PermissionSet

variable {s t : PermissionSet} {p q : Permission}

/-! ## Members -/

theorem mem_toList : p ∈ s.toList ↔ s.contains p = true := by
  rw [toList, contains, SortedMap.contains_iff, SortedMap.keys, List.mem_map]
  constructor
  · rintro ⟨⟨key, value⟩, hMem, rfl⟩
    exact ⟨value, SortedMap.get?_eq_some_iff.2 hMem⟩
  · rintro ⟨value, hGet⟩
    exact ⟨(p, value), SortedMap.get?_eq_some_iff.1 hGet, rfl⟩

@[simp]
theorem not_mem_empty : p ∉ (∅ : PermissionSet).toList := List.not_mem_nil

theorem mem_insert : p ∈ (s.insert q).toList ↔ p = q ∨ p ∈ s.toList := by
  rw [mem_toList, mem_toList, contains, insert, SortedMap.contains_insert_iff, contains]

theorem mem_insertAll {ps : List Permission} :
    p ∈ (s.insertAll ps).toList ↔ p ∈ s.toList ∨ p ∈ ps := by
  induction ps generalizing s with
  | nil => simp [insertAll]
  | cons first rest ih =>
    have hStep : s.insertAll (first :: rest) = (s.insert first).insertAll rest := rfl
    rw [hStep, ih, mem_insert, List.mem_cons, or_comm (a := p = first), or_assoc]

theorem mem_union : p ∈ (s.union t).toList ↔ p ∈ s.toList ∨ p ∈ t.toList := mem_insertAll

theorem mem_singleton : p ∈ (singleton q).toList ↔ p = q := by
  rw [singleton, ofList, mem_insertAll, List.mem_singleton]
  simp

theorem mem_foldl_union {ι : Type} {f : ι → PermissionSet} {l : List ι} :
    p ∈ (l.foldl (fun s i => s.union (f i)) s).toList ↔
      p ∈ s.toList ∨ ∃ i ∈ l, p ∈ (f i).toList := by
  induction l generalizing s with
  | nil => simp
  | cons i l ih => rw [List.foldl_cons, ih, mem_union, List.exists_mem_cons_iff, or_assoc]

/-- A set is its members, in whatever order they were put in. -/
theorem ext_mem (hMem : ∀ p, p ∈ s.toList ↔ p ∈ t.toList) : s = t := by
  have hGet : ∀ p, s.members.get? p = t.members.get? p := fun p => by
    have hContains : s.members.contains p = t.members.contains p := by
      rw [Bool.eq_iff_iff]
      exact mem_toList.symm.trans ((hMem p).trans mem_toList)
    cases hFirst : s.members.get? p <;> cases hSecond : t.members.get? p <;>
      simp_all [SortedMap.contains]
  exact congrArg PermissionSet.mk (SortedMap.ext_get? hGet)

theorem foldl_union_perm {ι : Type} {f : ι → PermissionSet} {l l' : List ι} (hPerm : l.Perm l') :
    l.foldl (fun s i => s.union (f i)) (∅ : PermissionSet) =
      l'.foldl (fun s i => s.union (f i)) ∅ :=
  ext_mem fun p => by simp only [mem_foldl_union, hPerm.mem_iff]

/-! ## Requests -/

theorem has_iff : s.has q = true ↔ ∃ p ∈ s.toList, p.covers q = true := by
  rw [has, Bool.or_eq_true, List.any_eq_true, or_iff_right_iff_imp, ← mem_toList]
  exact fun hMem => ⟨q, hMem, q.covers_self⟩

@[simp]
theorem has_empty : (∅ : PermissionSet).has q = false := rfl

theorem has_singleton : (singleton p).has q = true ↔ p.covers q = true := by
  simp only [has_iff, mem_singleton, exists_eq_left]

theorem has_foldl_union {ι : Type} {f : ι → PermissionSet} {l : List ι} :
    (l.foldl (fun s i => s.union (f i)) (∅ : PermissionSet)).has q = true ↔
      ∃ i ∈ l, (f i).has q = true := by
  simp only [has_iff, mem_foldl_union, not_mem_empty, false_or]
  constructor
  · rintro ⟨p, ⟨i, hMem, hIn⟩, hCovers⟩
    exact ⟨i, hMem, p, hIn, hCovers⟩
  · rintro ⟨i, hMem, p, hIn, hCovers⟩
    exact ⟨p, ⟨i, hMem, hIn⟩, hCovers⟩

end PermissionSet

end Tenancy
