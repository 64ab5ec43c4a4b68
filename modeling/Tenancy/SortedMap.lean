import Tenancy.KeyOrder

/-!
# Sorted maps

A finite map kept as the list of its entries in strictly ascending order of keys.  There is one
such list for each map, so two maps with the same entries are equal, and an ordered walk (a page of
names, a replay in name order) reads the list from left to right.

* `SortedMap.insert`, `SortedMap.erase` keep the order; an insertion replaces an equal key.
* `SortedMap.after`: the entries whose keys lie strictly above a given one.
-/

namespace Tenancy

open KeyOrder (before)

/-- The entries of `l` with the value of `key` set to `value`; `l` is read as sorted by key. -/
def insertEntry {κ ν : Type} [KeyOrder κ] (key : κ) (value : ν) : List (κ × ν) → List (κ × ν)
  | [] => [(key, value)]
  | entry :: rest =>
    if before key entry.1 then (key, value) :: entry :: rest
    else if before entry.1 key then entry :: insertEntry key value rest
    else (key, value) :: rest

section Insert

variable {κ ν : Type} [KeyOrder κ]

theorem mem_insertEntry {key : κ} {value : ν} {l : List (κ × ν)} {entry : κ × ν}
    (hEntry : entry ∈ insertEntry key value l) : entry = (key, value) ∨ entry ∈ l := by
  induction l with
  | nil => simpa [insertEntry] using hEntry
  | cons head rest ih =>
    simp only [insertEntry] at hEntry
    split at hEntry
    · simpa using hEntry
    · split at hEntry
      · rcases List.mem_cons.1 hEntry with h | h
        · exact .inr (h ▸ List.mem_cons_self)
        · exact (ih h).imp_right (List.mem_cons_of_mem _)
      · rcases List.mem_cons.1 hEntry with h | h
        · exact .inl h
        · exact .inr (List.mem_cons_of_mem _ h)

theorem pairwise_insertEntry {key : κ} {value : ν} {l : List (κ × ν)}
    (hSorted : l.Pairwise fun a b => before a.1 b.1 = true) :
    (insertEntry key value l).Pairwise fun a b => before a.1 b.1 = true := by
  induction l with
  | nil => simp [insertEntry]
  | cons head rest ih =>
    have hHead := (List.pairwise_cons.1 hSorted).1
    have hRest := (List.pairwise_cons.1 hSorted).2
    simp only [insertEntry]
    split
    · rename_i hBelow
      refine List.pairwise_cons.2 ⟨fun entry hEntry => ?_, hSorted⟩
      rcases List.mem_cons.1 hEntry with rfl | hEntry
      · exact hBelow
      · exact KeyOrder.before_trans _ _ _ hBelow (hHead _ hEntry)
    · rename_i hNotBelow
      split
      · rename_i hAbove
        refine List.pairwise_cons.2 ⟨fun entry hEntry => ?_, ih hRest⟩
        rcases mem_insertEntry hEntry with rfl | hEntry
        · exact hAbove
        · exact hHead _ hEntry
      · rename_i hNotAbove
        have hEq : key = head.1 := KeyOrder.eq_of_not_before _ _
          (Bool.eq_false_iff.2 hNotBelow) (Bool.eq_false_iff.2 hNotAbove)
        exact List.pairwise_cons.2 ⟨fun entry hEntry => hEq ▸ hHead _ hEntry, hRest⟩

end Insert

/-- A finite map as its list of entries, keys strictly ascending. -/
structure SortedMap (κ ν : Type) [KeyOrder κ] where
  toList : List (κ × ν)
  sorted : toList.Pairwise fun a b => before a.1 b.1 = true

namespace SortedMap

variable {κ ν : Type} [KeyOrder κ]

theorem ext_toList {m n : SortedMap κ ν} (hList : m.toList = n.toList) : m = n := by
  cases m; cases n; cases hList; rfl

instance [DecidableEq κ] [DecidableEq ν] : DecidableEq (SortedMap κ ν) := fun m n =>
  if h : m.toList = n.toList then .isTrue (ext_toList h)
  else .isFalse fun hEq => h (hEq ▸ rfl)

/-- The map without entries. -/
def empty : SortedMap κ ν := ⟨[], .nil⟩

instance : EmptyCollection (SortedMap κ ν) := ⟨empty⟩

instance : Inhabited (SortedMap κ ν) := ⟨∅⟩

def size (m : SortedMap κ ν) : Nat := m.toList.length

def isEmpty (m : SortedMap κ ν) : Bool := m.toList.isEmpty

def keys (m : SortedMap κ ν) : List κ := m.toList.map (·.1)

def values (m : SortedMap κ ν) : List ν := m.toList.map (·.2)

section Lookup

variable [DecidableEq κ]

def get? (m : SortedMap κ ν) (key : κ) : Option ν :=
  (m.toList.find? fun entry => entry.1 = key).map (·.2)

def contains (m : SortedMap κ ν) (key : κ) : Bool := (m.get? key).isSome

/-- The map without the entry of `key`. -/
def erase (m : SortedMap κ ν) (key : κ) : SortedMap κ ν :=
  ⟨m.toList.filter fun entry => entry.1 ≠ key, m.sorted.filter _⟩

end Lookup

/-- The map with every value replaced by its image. -/
def mapValues {ν' : Type} (m : SortedMap κ ν) (f : κ → ν → ν') : SortedMap κ ν' :=
  ⟨m.toList.map fun entry => (entry.1, f entry.1 entry.2), List.pairwise_map.2 m.sorted⟩

/-- The entries that satisfy `p`. -/
def filter (m : SortedMap κ ν) (p : κ → ν → Bool) : SortedMap κ ν :=
  ⟨m.toList.filter fun entry => p entry.1 entry.2, m.sorted.filter _⟩

/-- The values above `key`, ascending; all of them if there is no `key`. -/
def after (m : SortedMap κ ν) : Option κ → List ν
  | none => m.values
  | some key => (m.toList.filter fun entry => before key entry.1).map (·.2)

/-- The map that sends `key` to `value` and is otherwise unchanged. -/
def insert (m : SortedMap κ ν) (key : κ) (value : ν) : SortedMap κ ν :=
  ⟨insertEntry key value m.toList, pairwise_insertEntry m.sorted⟩

/-- The map of a list of entries; of equal keys the last counts. -/
def ofList (l : List (κ × ν)) : SortedMap κ ν :=
  l.foldl (fun m entry => m.insert entry.1 entry.2) ∅

end SortedMap

end Tenancy
