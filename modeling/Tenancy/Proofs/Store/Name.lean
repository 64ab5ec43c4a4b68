import Tenancy.Store.Name

/-!
# Valid names

`isValidName_iff`: a name is valid if it is short enough, has only the characters of names, and has
a letter or digit at both ends.
-/

namespace Tenancy

variable {name : String}

theorem isValidName_iff : isValidName name = true ↔ name.utf8ByteSize ≤ maxNameLength ∧
    (∀ c ∈ name.toList, isNameChar c = true) ∧ bothEnds isNameEnd name.toList = true := by
  rw [isValidName, checkName]
  by_cases hEmpty : name.isEmpty = true
  · rw [if_pos hEmpty, String.isEmpty_iff.1 hEmpty]
    exact ⟨nofun, fun h => nomatch h.2.2⟩
  by_cases hLong : maxNameLength < name.utf8ByteSize
  · rw [if_neg hEmpty, if_pos hLong]
    exact ⟨nofun, fun h => absurd h.1 (Nat.not_le.2 hLong)⟩
  rw [if_neg hEmpty, if_neg hLong, and_iff_right (Nat.not_lt.1 hLong)]
  cases hFind : name.toList.find? fun c => !isNameChar c with
  | some c =>
    have hBad := List.find?_some hFind
    have hMem := List.mem_of_find?_eq_some hFind
    refine ⟨nofun, fun h => ?_⟩
    rw [h.1 c hMem] at hBad
    cases hBad
  | none =>
    have hChars : ∀ c ∈ name.toList, isNameChar c = true := by
      simpa using hFind
    rw [and_iff_right hChars]
    cases bothEnds isNameEnd name.toList <;> simp [Except.toBool]

end Tenancy
