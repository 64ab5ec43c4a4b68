import Mathlib.Data.List.Forall2
import Mathlib.Data.List.Nodup
import Tenancy.SortedMap

/-!
# Looking up in sorted maps

A sorted map is the finite function that `get?` shows.

* `SortedMap.get?_insert`, `SortedMap.get?_erase`: what an update does to that function.
* `SortedMap.ext_get?`: maps with the same look-ups are equal, so an entry that is put in and taken
  out again leaves no trace (`SortedMap.erase_insert`).
* `SortedMap.mem_of_get?_ofList`: what is looked up in the map of a list is in the list.
* `SortedMap.forall₂_toList`: if the entries of two maps are counterparts of each other, and the
  order is the same, they stand at the same places.
-/

namespace Tenancy

open KeyOrder (before)

theorem KeyOrder.ne_of_before {κ : Type} [KeyOrder κ] {a b : κ} (hBefore : before a b = true) :
    a ≠ b := by
  rintro rfl
  rw [KeyOrder.before_self] at hBefore
  cases hBefore

theorem KeyOrder.not_before_of_before {κ : Type} [KeyOrder κ] {a b : κ}
    (hBefore : before a b = true) : before b a = false := by
  by_contra hBack
  have hSelf := KeyOrder.before_trans _ _ _ hBefore (Bool.not_eq_false _ ▸ hBack)
  rw [KeyOrder.before_self] at hSelf
  cases hSelf

theorem KeyOrder.before_of_ne {κ : Type} [KeyOrder κ] {a b : κ} (hNe : a ≠ b) :
    before a b = !before b a := by
  cases hBefore : before b a with
  | true => exact KeyOrder.not_before_of_before hBefore
  | false =>
    by_contra hBack
    exact hNe (KeyOrder.eq_of_not_before a b (Bool.eq_false_iff.2 hBack) hBefore)

namespace SortedMap

variable {κ ν : Type} [KeyOrder κ]

theorem nodup_keys (m : SortedMap κ ν) : m.keys.Nodup :=
  List.pairwise_map.2 (m.sorted.imp KeyOrder.ne_of_before)

theorem mem_values_of_mem_after {m : SortedMap κ ν} {start : Option κ} {v : ν}
    (hMem : v ∈ m.after start) : v ∈ m.values := by
  cases start with
  | none => exact hMem
  | some low => exact (List.filter_sublist.map _).subset hMem

variable [DecidableEq κ] {m n : SortedMap κ ν} {key other : κ} {value : ν}

/-! ## Membership -/

theorem get?_eq_some_iff : m.get? key = some value ↔ (key, value) ∈ m.toList := by
  constructor
  · intro hGet
    obtain ⟨entry, hFind, rfl⟩ := Option.map_eq_some_iff.1 hGet
    have hKey : entry.1 = key := by simpa using List.find?_some hFind
    exact hKey ▸ List.mem_of_find?_eq_some hFind
  · intro hMem
    cases hFind : m.toList.find? fun entry => entry.1 = key with
    | none => exact absurd (List.find?_eq_none.1 hFind _ hMem) (by simp)
    | some entry =>
      have hKey : entry.1 = key := by simpa using List.find?_some hFind
      have hEq : entry = (key, value) := List.inj_on_of_nodup_map (nodup_keys m)
        (List.mem_of_find?_eq_some hFind) hMem hKey
      simp [get?, hFind, hEq]

theorem contains_iff : m.contains key = true ↔ ∃ value, m.get? key = some value :=
  Option.isSome_iff_exists

theorem contains_eq_false_iff : m.contains key = false ↔ m.get? key = none :=
  Option.isSome_eq_false_iff.trans Option.isNone_iff_eq_none

theorem mem_values {v : ν} : v ∈ m.values ↔ ∃ k, m.get? k = some v := by
  simp [values, get?_eq_some_iff]

/-- A map of values under keys that they carry themselves. -/
theorem mem_values_iff_get? {keyOf : ν → κ} (h : ∀ k v, m.get? k = some v → keyOf v = k) :
    value ∈ m.values ↔ m.get? (keyOf value) = some value := by
  rw [mem_values]
  constructor
  · rintro ⟨k, hGet⟩
    rwa [h k value hGet]
  · exact fun hGet => ⟨keyOf value, hGet⟩

/-! ## Updates -/

@[simp]
theorem get?_empty : (∅ : SortedMap κ ν).get? key = none := rfl

theorem find?_insertEntry_self (key : κ) (value : ν) (l : List (κ × ν)) :
    (insertEntry key value l).find? (fun entry => entry.1 = key) = some (key, value) := by
  induction l with
  | nil => simp [insertEntry]
  | cons head rest ih =>
    rw [insertEntry]
    split
    · simp
    · split
      · rename_i hAbove
        simp [KeyOrder.ne_of_before hAbove, ih]
      · simp

theorem find?_insertEntry_of_ne (hNe : other ≠ key) (value : ν) (l : List (κ × ν)) :
    (insertEntry key value l).find? (fun entry => entry.1 = other) =
      l.find? fun entry => entry.1 = other := by
  induction l with
  | nil => simp [insertEntry, hNe.symm]
  | cons head rest ih =>
    rw [insertEntry]
    split
    · simp [hNe.symm]
    · rename_i hNotBelow
      split
      · simp [List.find?_cons, ih]
      · rename_i hNotAbove
        have hEq : key = head.1 := KeyOrder.eq_of_not_before _ _
          (Bool.eq_false_iff.2 hNotBelow) (Bool.eq_false_iff.2 hNotAbove)
        simp [hNe.symm, ← hEq]

theorem get?_insert (m : SortedMap κ ν) (key other : κ) (value : ν) :
    (m.insert key value).get? other = if other = key then some value else m.get? other := by
  split
  · rename_i hEq
    simp [get?, insert, hEq, find?_insertEntry_self]
  · rename_i hNe
    simp only [get?, insert, find?_insertEntry_of_ne hNe]

@[simp]
theorem get?_insert_self : (m.insert key value).get? key = some value := by simp [get?_insert]

theorem get?_insert_of_ne (hNe : other ≠ key) : (m.insert key value).get? other = m.get? other := by
  simp [get?_insert, hNe]

theorem get?_erase (m : SortedMap κ ν) (key other : κ) :
    (m.erase key).get? other = if other = key then none else m.get? other := by
  simp only [get?, erase, List.find?_filter]
  split
  · rename_i hEq
    simp [hEq]
  · rename_i hNe
    congr 2
    funext entry
    by_cases hEntry : entry.1 = other <;> simp [hEntry, hNe]

@[simp]
theorem get?_erase_self : (m.erase key).get? key = none := by simp [get?_erase]

theorem get?_erase_of_ne (hNe : other ≠ key) : (m.erase key).get? other = m.get? other := by
  simp [get?_erase, hNe]

theorem of_get?_insert {v : ν} (hGet : (m.insert key value).get? other = some v) :
    v = value ∨ m.get? other = some v := by
  rw [get?_insert] at hGet
  split at hGet
  · exact .inl (Option.some.inj hGet).symm
  · exact .inr hGet

theorem of_get?_erase (hGet : (m.erase key).get? other = some value) :
    m.get? other = some value := by
  rw [get?_erase] at hGet
  split at hGet
  · cases hGet
  · exact hGet

/-- What holds of all keys with their values holds after one more. -/
theorem forall_get?_insert {P : κ → ν → Prop} (h : ∀ k v, m.get? k = some v → P k v)
    (hNew : P key value) (k : κ) (v : ν) (hGet : (m.insert key value).get? k = some v) : P k v := by
  rw [get?_insert] at hGet
  split at hGet
  · rename_i hKey
    exact hKey ▸ Option.some.inj hGet ▸ hNew
  · exact h k v hGet

theorem forall_get?_erase {P : κ → ν → Prop} (h : ∀ k v, m.get? k = some v → P k v) (k : κ)
    (v : ν) (hGet : (m.erase key).get? k = some v) : P k v :=
  h k v (of_get?_erase hGet)

theorem contains_insert_iff :
    (m.insert key value).contains other = true ↔ other = key ∨ m.contains other = true := by
  rw [contains_iff, contains_iff, get?_insert]
  split <;> simp_all

theorem contains_erase_iff :
    (m.erase key).contains other = true ↔ other ≠ key ∧ m.contains other = true := by
  rw [contains_iff, contains_iff, get?_erase]
  split <;> simp_all

theorem mem_values_insert {v : ν} (hAbsent : m.get? key = none) :
    v ∈ (m.insert key value).values ↔ v = value ∨ v ∈ m.values := by
  simp only [mem_values, get?_insert]
  constructor
  · rintro ⟨k, hGet⟩
    split at hGet
    · exact .inl (Option.some.inj hGet).symm
    · exact .inr ⟨k, hGet⟩
  · rintro (rfl | ⟨k, hGet⟩)
    · exact ⟨key, if_pos rfl⟩
    · refine ⟨k, ?_⟩
      rw [if_neg, hGet]
      rintro rfl
      rw [hAbsent] at hGet
      cases hGet

theorem mem_values_of_erase {v : ν} (hMem : v ∈ (m.erase key).values) : v ∈ m.values := by
  obtain ⟨k, hGet⟩ := mem_values.1 hMem
  exact mem_values.2 ⟨k, of_get?_erase hGet⟩

theorem mem_or_of_get?_foldl_insert {l : List (κ × ν)}
    (hGet : (l.foldl (fun m entry => m.insert entry.1 entry.2) m).get? key = some value) :
    (key, value) ∈ l ∨ m.get? key = some value := by
  induction l generalizing m with
  | nil => exact .inr hGet
  | cons entry rest ih =>
    rcases ih hGet with hMem | hInsert
    · exact .inl (List.mem_cons_of_mem _ hMem)
    · rw [get?_insert] at hInsert
      split at hInsert
      · rename_i hEq
        obtain rfl := Option.some.inj hInsert
        exact .inl (hEq ▸ List.mem_cons_self)
      · exact .inr hInsert

theorem mem_of_get?_ofList {l : List (κ × ν)} (hGet : (ofList l).get? key = some value) :
    (key, value) ∈ l := by
  rcases mem_or_of_get?_foldl_insert hGet with hMem | hEmpty
  · exact hMem
  · cases hEmpty

theorem get?_foldl_insert_of_mem {l : List (κ × ν)}
    (h : (key, value) ∈ l ∨ ∃ v, m.get? key = some v) :
    ∃ v, (l.foldl (fun m entry => m.insert entry.1 entry.2) m).get? key = some v := by
  induction l generalizing m with
  | nil => exact h.resolve_left List.not_mem_nil
  | cons entry rest ih =>
    refine ih ?_
    rcases h with hMem | ⟨v, hGet⟩
    · rcases List.mem_cons.1 hMem with rfl | hRest
      · exact .inr ⟨value, get?_insert_self⟩
      · exact .inl hRest
    · refine .inr ?_
      rw [get?_insert]
      split
      · exact ⟨_, rfl⟩
      · exact ⟨v, hGet⟩

/-- If a list has one value for a key, the map of the list has it. -/
theorem get?_ofList_of_unique {l : List (κ × ν)} (hMem : (key, value) ∈ l)
    (hUnique : ∀ v, (key, v) ∈ l → v = value) : (ofList l).get? key = some value := by
  obtain ⟨v, hGet⟩ := get?_foldl_insert_of_mem (m := ∅) (.inl hMem)
  obtain rfl := hUnique v (mem_of_get?_ofList hGet)
  exact hGet

/-! ## Parts -/

theorem get?_filter (m : SortedMap κ ν) (p : κ → ν → Bool) (key : κ) :
    (m.filter p).get? key = (m.get? key).filter (p key) := by
  refine Option.ext fun value => ?_
  rw [get?_eq_some_iff, Option.filter_eq_some_iff, get?_eq_some_iff]
  exact List.mem_filter

theorem get?_mapValues {ν' : Type} (m : SortedMap κ ν) (f : κ → ν → ν') (key : κ) :
    (m.mapValues f).get? key = (m.get? key).map (f key) := by
  refine Option.ext fun value => ?_
  rw [get?_eq_some_iff, Option.map_eq_some_iff]
  simp only [mapValues, get?_eq_some_iff, List.mem_map]
  constructor
  · rintro ⟨⟨k, v⟩, hMem, hEntry⟩
    obtain ⟨rfl, rfl⟩ := Prod.mk.inj hEntry
    exact ⟨v, hMem, rfl⟩
  · rintro ⟨v, hMem, rfl⟩
    exact ⟨(key, v), hMem, rfl⟩

omit [DecidableEq κ] in
theorem values_filter (m : SortedMap κ ν) (p : ν → Bool) :
    (m.filter fun _ v => p v).values = m.values.filter p :=
  (List.filter_map (f := Prod.snd) (p := p)).symm

omit [DecidableEq κ] in
/-- A key above all others comes last. -/
theorem insertEntry_of_last {l : List (κ × ν)} (hLast : ∀ entry ∈ l, before entry.1 key = true)
    (value : ν) : insertEntry key value l = l ++ [(key, value)] := by
  induction l with
  | nil => rfl
  | cons head rest ih =>
    have hHead := hLast head List.mem_cons_self
    rw [insertEntry, if_neg (by simp [KeyOrder.not_before_of_before hHead]), if_pos hHead,
      ih fun entry hMem => hLast entry (List.mem_cons_of_mem _ hMem)]
    rfl

theorem values_insert_of_last (hLast : ∀ k v, m.get? k = some v → before k key = true)
    (value : ν) : (m.insert key value).values = m.values ++ [value] := by
  have hEntries : insertEntry key value m.toList = m.toList ++ [(key, value)] :=
    insertEntry_of_last (fun entry hMem => hLast _ _ (get?_eq_some_iff.2 hMem)) value
  simp only [values, insert, hEntries, List.map_append, List.map_cons, List.map_nil]

/-! ## Extensionality -/

theorem ext_get? (hGet : ∀ key, m.get? key = n.get? key) : m = n := by
  have hPerm : m.toList.Perm n.toList := by
    refine (List.perm_ext_iff_of_nodup ?_ ?_).2 fun entry => ?_
    · exact List.Nodup.of_map _ (nodup_keys m)
    · exact List.Nodup.of_map _ (nodup_keys n)
    · rw [← get?_eq_some_iff, ← get?_eq_some_iff, hGet]
  refine ext_toList (hPerm.eq_of_pairwise (fun a b _ _ hab hba => ?_) m.sorted n.sorted)
  rw [KeyOrder.not_before_of_before hab] at hba
  cases hba

theorem erase_insert (hAbsent : m.get? key = none) : (m.insert key value).erase key = m := by
  refine ext_get? fun other => ?_
  rw [get?_erase, get?_insert]
  split
  · rename_i hEq
    rw [hEq, hAbsent]
  · rfl

theorem erase_of_get?_eq_none (hAbsent : m.get? key = none) : m.erase key = m := by
  refine ext_get? fun other => ?_
  rw [get?_erase]
  split
  · rename_i hEq
    rw [hEq, hAbsent]
  · rfl

/-! ## Counterparts -/

omit [DecidableEq κ] in
/-- Sorted lists of which every entry has a counterpart in the other one, in the same order. -/
theorem forall₂_of_sorted {ν' : Type} {alike : κ × ν → κ × ν' → Prop} {l : List (κ × ν)}
    {l' : List (κ × ν')} (hSorted : l.Pairwise fun a b => before a.1 b.1 = true)
    (hSorted' : l'.Pairwise fun a b => before a.1 b.1 = true)
    (hOrder : ∀ {a b a' b'}, alike a a' → alike b b' → before a.1 b.1 = before a'.1 b'.1)
    (hLeft : ∀ a ∈ l, ∃ a' ∈ l', alike a a') (hRight : ∀ a' ∈ l', ∃ a ∈ l, alike a a') :
    List.Forall₂ alike l l' := by
  induction l generalizing l' with
  | nil =>
    cases l' with
    | nil => exact .nil
    | cons a' l' =>
      obtain ⟨_, hMem, -⟩ := hRight a' List.mem_cons_self
      cases hMem
  | cons a l ih =>
    obtain ⟨hFirst, hRest⟩ := List.pairwise_cons.1 hSorted
    obtain ⟨b', hMem, hAlike⟩ := hLeft a List.mem_cons_self
    cases l' with
    | nil => cases hMem
    | cons a' l' =>
      obtain ⟨hFirst', hRest'⟩ := List.pairwise_cons.1 hSorted'
      -- The counterpart of the first entry comes first: nothing comes before it.
      have hHead : alike a a' := by
        rcases List.mem_cons.1 hMem with rfl | hLater
        · exact hAlike
        · obtain ⟨b, hFound, hBack⟩ := hRight a' List.mem_cons_self
          rcases List.mem_cons.1 hFound with rfl | hAfter
          · exact hBack
          · have hBefore := hOrder hBack hAlike
            rw [hFirst' _ hLater, KeyOrder.not_before_of_before (hFirst _ hAfter)] at hBefore
            cases hBefore
      refine .cons hHead (ih hRest hRest' (fun b hTail => ?_) fun b' hTail => ?_)
      · obtain ⟨c', hFound, hBack⟩ := hLeft b (List.mem_cons_of_mem _ hTail)
        rcases List.mem_cons.1 hFound with rfl | hAfter
        · have hBefore := hOrder hHead hBack
          rw [hFirst b hTail, KeyOrder.before_self] at hBefore
          cases hBefore
        · exact ⟨c', hAfter, hBack⟩
      · obtain ⟨c, hFound, hBack⟩ := hRight b' (List.mem_cons_of_mem _ hTail)
        rcases List.mem_cons.1 hFound with rfl | hAfter
        · have hBefore := hOrder hHead hBack
          rw [hFirst' b' hTail, KeyOrder.before_self] at hBefore
          cases hBefore
        · exact ⟨c, hAfter, hBack⟩

theorem forall₂_toList {ν' : Type} {m' : SortedMap κ ν'} {names : κ → κ → Prop}
    {alike : ν → ν' → Prop}
    (hOrder : ∀ {a b a' b'}, names a a' → names b b' → before a b = before a' b')
    (hGet : ∀ {key key'}, names key key' → Option.Rel alike (m.get? key) (m'.get? key'))
    (hLeft : ∀ key, m.contains key = true → ∃ key', names key key')
    (hRight : ∀ key', m'.contains key' = true → ∃ key, names key key') :
    List.Forall₂ (fun a a' => names a.1 a'.1 ∧ alike a.2 a'.2) m.toList m'.toList := by
  refine forall₂_of_sorted m.sorted m'.sorted (fun h h' => hOrder h.1 h'.1) ?_ ?_
  · rintro ⟨key, value⟩ hMem
    have hStored := get?_eq_some_iff.2 hMem
    obtain ⟨key', hKey⟩ := hLeft key (contains_iff.2 ⟨value, hStored⟩)
    have hValue := hGet hKey
    rw [hStored] at hValue
    generalize hStored' : m'.get? key' = found at hValue
    cases hValue with
    | some hAlike => exact ⟨_, get?_eq_some_iff.1 hStored', hKey, hAlike⟩
  · rintro ⟨key', value'⟩ hMem
    have hStored' := get?_eq_some_iff.2 hMem
    obtain ⟨key, hKey⟩ := hRight key' (contains_iff.2 ⟨value', hStored'⟩)
    have hValue := hGet hKey
    rw [hStored'] at hValue
    generalize hStored : m.get? key = found at hValue
    cases hValue with
    | some hAlike => exact ⟨_, get?_eq_some_iff.1 hStored, hKey, hAlike⟩

end SortedMap

end Tenancy
