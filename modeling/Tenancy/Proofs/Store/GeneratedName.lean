import Tenancy.Proofs.Store.Name
import Tenancy.Proofs.Text.Boundary

/-!
# Generated names

A generated name is what is kept of its stem, and then the drawn characters.  These are letters and
digits, so they make the name end as it must, and begin as it must where nothing is kept.  What else
a valid name takes must be in the stem.

* `IsDraw`: what may be drawn.
* `IsNameStem`: what may be kept.
* `isValidName_generateName_iff`: the name is valid exactly if what is kept is such a stem.
-/

namespace Tenancy

variable {c : Char} {kept stem draw : String}

/-! ## Characters of names -/

def IsLetterOrDigit (c : Char) : Prop := ('a' ≤ c ∧ c ≤ 'z') ∨ ('0' ≤ c ∧ c ≤ '9')

instance (c : Char) : Decidable (IsLetterOrDigit c) :=
  inferInstanceAs (Decidable (('a' ≤ c ∧ c ≤ 'z') ∨ ('0' ≤ c ∧ c ≤ '9')))

theorem isNameEnd_iff : isNameEnd c = true ↔ IsLetterOrDigit c := by
  have hLower : c.isLower = (decide ('a' ≤ c) && decide (c ≤ 'z')) := rfl
  have hDigit : c.isDigit = (decide ('0' ≤ c) && decide (c ≤ '9')) := rfl
  simp only [isNameEnd, hLower, hDigit, IsLetterOrDigit, Bool.or_eq_true, Bool.and_eq_true,
    decide_eq_true_iff]

theorem isNameChar_iff : isNameChar c = true ↔ IsLetterOrDigit c ∨ c = '-' ∨ c = '.' := by
  simp only [isNameChar, Bool.or_eq_true, isNameEnd_iff, decide_eq_true_iff, or_assoc]

/-! ## Stems and draws -/

/-- The characters of names, beginning with a letter or a digit unless there are none. -/
structure IsNameStem (s : String) : Prop where
  chars : ∀ c ∈ s.toList, IsLetterOrDigit c ∨ c = '-' ∨ c = '.'
  begins : s = "" ∨ ∃ c, s.toList.head? = some c ∧ IsLetterOrDigit c

structure IsDraw (draw : String) : Prop where
  length : draw.toList.length = drawLength
  drawn : ∀ c ∈ draw.toList, c ∈ drawAlphabet

instance (draw : String) : Decidable (IsDraw draw) :=
  decidable_of_iff
    (draw.toList.length = drawLength ∧ draw.toList.all (drawAlphabet.contains ·) = true)
    ⟨fun h => ⟨h.1, by simpa using h.2⟩, fun h => ⟨h.length, by simpa using h.drawn⟩⟩

namespace IsDraw

variable (h : IsDraw draw)

include h

theorem ne_nil : draw.toList ≠ [] := by
  intro hNil
  have hLength := h.length
  rw [hNil] at hLength
  cases hLength

theorem isNameEnd (hMem : c ∈ draw.toList) : isNameEnd c = true := by
  have hAll : drawAlphabet.all Tenancy.isNameEnd = true := by decide
  exact List.all_eq_true.1 hAll c (h.drawn c hMem)

theorem utf8ByteSize : draw.utf8ByteSize = drawLength := by
  have hAll : drawAlphabet.all (·.utf8Size = 1) = true := by decide
  have hOne : ∀ c ∈ draw.toList, c.utf8Size = 1 := fun c hMem =>
    of_decide_eq_true (List.all_eq_true.1 hAll c (h.drawn c hMem))
  rw [← String.utf8Len_toList, utf8Len_of_forall_one hOne, h.length]

end IsDraw

/-! ## Valid names -/

theorem utf8ByteSize_generateName (hDraw : IsDraw draw) (stem : String) :
    (generateName stem draw).utf8ByteSize ≤ maxNameLength := by
  have hFits := (isClip_clipBytes (maxNameLength - drawLength) stem).fits
  rw [generateName, String.utf8ByteSize_append, hDraw.utf8ByteSize, keptStem]
  rw [maxNameLength, drawLength] at *
  omega

/-- The last character is drawn, and the first one is if nothing is kept. -/
theorem bothEnds_append_iff (hDraw : IsDraw draw) :
    bothEnds isNameEnd (kept.toList ++ draw.toList) = true ↔
      kept = "" ∨ ∃ c, kept.toList.head? = some c ∧ IsLetterOrDigit c := by
  obtain ⟨first, rest, hFirst⟩ := List.exists_cons_of_ne_nil hDraw.ne_nil
  have hHead : isNameEnd first = true := hDraw.isNameEnd (hFirst ▸ List.mem_cons_self)
  have hLast : (kept.toList ++ draw.toList).getLast?.any isNameEnd = true := by
    rw [List.getLast?_append_of_ne_nil _ hDraw.ne_nil, List.getLast?_eq_some_getLast hDraw.ne_nil]
    exact hDraw.isNameEnd (List.getLast_mem _)
  rw [bothEnds, hLast, Bool.and_true]
  cases hKept : kept.toList with
  | nil =>
    have hEmpty : kept = "" := String.toList_inj.1 hKept
    rw [List.nil_append, hFirst]
    exact iff_of_true hHead (.inl hEmpty)
  | cons c cs =>
    have hNotEmpty : kept ≠ "" := by
      rintro rfl
      cases hKept
    simp [hNotEmpty, isNameEnd_iff]

theorem isValidName_append_iff (hDraw : IsDraw draw)
    (hFits : (kept ++ draw).utf8ByteSize ≤ maxNameLength) :
    isValidName (kept ++ draw) = true ↔ IsNameStem kept := by
  have hDrawn : ∀ c ∈ draw.toList, isNameChar c = true := fun c hMem => by
    rw [isNameChar, hDraw.isNameEnd hMem]
    rfl
  rw [isValidName_iff, and_iff_right hFits, String.toList_append, bothEnds_append_iff hDraw,
    List.forall_mem_append, and_iff_left hDrawn]
  simp only [isNameChar_iff]
  exact ⟨fun h => ⟨h.1, h.2⟩, fun h => ⟨h.chars, h.begins⟩⟩

theorem isValidName_generateName_iff (hDraw : IsDraw draw) :
    isValidName (generateName stem draw) = true ↔ IsNameStem (keptStem stem) :=
  isValidName_append_iff hDraw (utf8ByteSize_generateName hDraw stem)

end Tenancy
