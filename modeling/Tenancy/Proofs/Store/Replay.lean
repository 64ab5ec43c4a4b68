import Tenancy.Proofs.SortedMap
import Tenancy.Store.Container

/-!
# Replaying events

Events are replayed on a map of entries by name.  An event that does not fit the map stops the
replay: only an absent entry can be added, and only a present one modified or deleted.

* `replay_added`: the additions of some entries under different names give the map of these entries.
-/

namespace Tenancy

/-- The entries after an event, if it fits them. -/
def replayEvent (entries : SortedMap String Entry) : Event Entry → Option (SortedMap String Entry)
  | .added entry =>
    if entries.contains entry.name then none else some (entries.insert entry.name entry)
  | .modified entry =>
    if entries.contains entry.name then some (entries.insert entry.name entry) else none
  | .deleted entry => if entries.contains entry.name then some (entries.erase entry.name) else none
  | .error _ => none
  | .bookmark _ => some entries

def replay (entries : SortedMap String Entry) (events : List (Event Entry)) :
    Option (SortedMap String Entry) :=
  events.foldlM replayEvent entries

@[simp]
theorem replay_nil (entries : SortedMap String Entry) : replay entries [] = some entries := rfl

theorem replay_cons (entries : SortedMap String Entry) (e : Event Entry)
    (events : List (Event Entry)) :
    replay entries (e :: events) = (replayEvent entries e).bind (replay · events) := rfl

theorem replay_append (entries : SortedMap String Entry) (first second : List (Event Entry)) :
    replay entries (first ++ second) = (replay entries first).bind (replay · second) :=
  List.foldlM_append

theorem replay_added (added : List Entry) (entries : SortedMap String Entry)
    (hNodup : (added.map Entry.name).Nodup) (hAbsent : ∀ e ∈ added, entries.get? e.name = none) :
    ∃ result, replay entries (added.map .added) = some result ∧
      ∀ name e, result.get? name = some e ↔
        (e ∈ added ∧ e.name = name) ∨ entries.get? name = some e := by
  induction added generalizing entries with
  | nil => exact ⟨entries, rfl, by simp⟩
  | cons entry added ih =>
    obtain ⟨hNew, hNodup⟩ := List.nodup_cons.1 hNodup
    have hEntry := hAbsent entry (List.mem_cons_self ..)
    have hOthers : ∀ e ∈ added, (entries.insert entry.name entry).get? e.name = none := by
      intro e hMem
      rw [SortedMap.get?_insert_of_ne]
      · exact hAbsent e (List.mem_cons_of_mem _ hMem)
      · rintro hEq
        exact hNew (hEq ▸ List.mem_map_of_mem hMem)
    obtain ⟨result, hReplay, hGet⟩ := ih _ hNodup hOthers
    refine ⟨result, ?_, fun name e => ?_⟩
    · rw [List.map_cons, replay_cons, replayEvent, SortedMap.contains_eq_false_iff.2 hEntry]
      exact hReplay
    · rw [hGet, SortedMap.get?_insert, List.mem_cons]
      by_cases hName : name = entry.name
      · rw [if_pos hName, hName, hEntry]
        constructor
        · rintro (⟨hMem, hEq⟩ | hEq)
          · exact .inl ⟨.inr hMem, hEq⟩
          · obtain rfl := Option.some.inj hEq
            exact .inl ⟨.inl rfl, rfl⟩
        · rintro (⟨rfl | hMem, hEq⟩ | hEq)
          · exact .inr rfl
          · exact .inl ⟨hMem, hEq⟩
          · cases hEq
      · rw [if_neg hName]
        constructor
        · rintro (⟨hMem, hEq⟩ | hEq)
          · exact .inl ⟨.inr hMem, hEq⟩
          · exact .inr hEq
        · rintro (⟨rfl | hMem, hEq⟩ | hEq)
          · exact absurd hEq.symm hName
          · exact .inl ⟨hMem, hEq⟩
          · exact .inr hEq

def Named (entries : SortedMap String Entry) : Prop :=
  ∀ name entry, entries.get? name = some entry → entry.name = name

theorem Named.insert {entries : SortedMap String Entry} (h : Named entries) {name : String}
    {entry : Entry} (hName : entry.name = name) : Named (entries.insert name entry) :=
  SortedMap.forall_get?_insert h hName

theorem Named.erase {entries : SortedMap String Entry} (h : Named entries) (name : String) :
    Named (entries.erase name) :=
  SortedMap.forall_get?_erase h

/-- A map of entries is rebuilt by the additions of all its entries. -/
theorem replay_values {entries : SortedMap String Entry} (hNamed : Named entries) :
    replay ∅ (entries.values.map .added) = some entries := by
  have hKeys : entries.values.map Entry.name = entries.keys := by
    simp only [SortedMap.values, SortedMap.keys, List.map_map]
    refine List.map_congr_left fun pair hMem => ?_
    exact hNamed pair.1 pair.2 (SortedMap.get?_eq_some_iff.2 hMem)
  obtain ⟨result, hReplay, hGet⟩ := replay_added entries.values ∅
    (hKeys ▸ SortedMap.nodup_keys entries) fun _ _ => rfl
  have hSame : result = entries := by
    refine SortedMap.ext_get? fun name => Option.ext fun e => ?_
    rw [hGet, SortedMap.mem_values]
    constructor
    · rintro (⟨⟨key, hStored⟩, rfl⟩ | hEmpty)
      · rwa [hNamed key e hStored]
      · cases hEmpty
    · intro hStored
      exact .inl ⟨⟨name, hStored⟩, hNamed name e hStored⟩
  rw [hReplay, hSame]

end Tenancy
