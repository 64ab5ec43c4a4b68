import Tenancy.Proofs.Text.Clip

/-!
# Cutting at bytes

A text can be cut at a byte only between two characters; anywhere else there is no beginning to
take.  A clipped text is what one gets by going back, byte by byte, from the last byte for which
there is room until the cut is possible.  It always becomes possible, at the latest at the beginning
of the text.

* `IsClip.cutBack?_eq_some`: going back and cutting never fails, and gives the clipped text.
-/

namespace Tenancy

variable {room n : Nat} {s t : String}

/-- The first `n` bytes of a text, if they end between two characters. -/
def firstBytes? (s : String) (n : Nat) : Option String :=
  if h : (⟨n⟩ : String.Pos.Raw).IsValid s then some (s.sliceTo ⟨⟨n⟩, h⟩).copy else none

/-- The first place between two characters that is met on the way back from byte `n`, if one is met
before there are no bytes left. -/
def boundaryFrom? (s : String) : Nat → Option Nat
  | 0 => if String.Pos.Raw.isValid s ⟨0⟩ then some 0 else none
  | n + 1 => if String.Pos.Raw.isValid s ⟨n + 1⟩ then some (n + 1) else boundaryFrom? s n

/-- The text cut where the way back from its end, or from the last byte for which there is room,
meets a place between two characters. -/
def cutBack? (room : Nat) (s : String) : Option String :=
  (boundaryFrom? s (min s.utf8ByteSize room)).bind (firstBytes? s)

/-! ## Places between characters -/

theorem isValid_iff_begins :
    String.Pos.Raw.isValid s ⟨n⟩ = true ↔ ∃ t u, s = t ++ u ∧ n = t.utf8ByteSize := by
  rw [String.Pos.Raw.isValid_eq_true_iff, String.Pos.Raw.isValid_iff_exists_append]
  simp only [String.Pos.Raw.ext_iff, String.byteIdx_rawEndPos]

theorem firstBytes?_append (t u : String) : firstBytes? (t ++ u) t.utf8ByteSize = some t := by
  have hValid : (⟨t.utf8ByteSize⟩ : String.Pos.Raw).IsValid (t ++ u) :=
    String.Pos.Raw.isValid_eq_true_iff.1 (isValid_iff_begins.2 ⟨t, u, rfl, rfl⟩)
  have hSplits : String.Pos.Splits (⟨⟨t.utf8ByteSize⟩, hValid⟩ : (t ++ u).Pos) t u := ⟨rfl, rfl⟩
  rw [firstBytes?, dif_pos hValid, hSplits.copy_sliceTo_eq]

/-- The way back stops at the last place between two characters. -/
theorem boundaryFrom?_eq {m : Nat} (hValid : String.Pos.Raw.isValid s ⟨m⟩ = true) (hLe : m ≤ n)
    (hLast : ∀ k ≤ n, String.Pos.Raw.isValid s ⟨k⟩ = true → k ≤ m) :
    boundaryFrom? s n = some m := by
  induction n with
  | zero =>
    obtain rfl : m = 0 := by omega
    rw [boundaryFrom?, if_pos hValid]
  | succ n ih =>
    rw [boundaryFrom?]
    by_cases hHere : String.Pos.Raw.isValid s ⟨n + 1⟩ = true
    · have hEq : m = n + 1 := Nat.le_antisymm hLe (hLast (n + 1) (Nat.le_refl _) hHere)
      rw [if_pos hHere, hEq]
    · rw [if_neg hHere]
      refine ih ?_ fun k hk => hLast k (by omega)
      rcases Nat.lt_or_eq_of_le hLe with hLess | rfl
      · omega
      · exact absurd hValid hHere

/-! ## Clipped texts -/

theorem utf8ByteSize_le_of_begins (hBegins : t.toList <+: s.toList) :
    t.utf8ByteSize ≤ s.utf8ByteSize := by
  obtain ⟨rest, hRest⟩ := hBegins
  rw [← String.utf8Len_toList, ← s.utf8Len_toList, ← hRest, String.utf8Len_append]
  omega

namespace IsClip

variable (h : IsClip room s t)

include h

theorem exists_append : ∃ u, s = t ++ u := by
  obtain ⟨rest, hRest⟩ := h.begins
  refine ⟨String.ofList rest, ?_⟩
  rw [← String.toList_inj, String.toList_append, String.toList_ofList, hRest]

theorem boundary : boundaryFrom? s (min s.utf8ByteSize room) = some t.utf8ByteSize := by
  obtain ⟨u, hWhole⟩ := h.exists_append
  refine boundaryFrom?_eq (isValid_iff_begins.2 ⟨t, u, hWhole, rfl⟩) ?_ fun k hk hValid => ?_
  · exact Nat.le_min.2 ⟨utf8ByteSize_le_of_begins h.begins, h.fits⟩
  · -- a place within the room ends a beginning for which there is room
    obtain ⟨v, w, rfl, rfl⟩ := isValid_iff_begins.1 hValid
    refine utf8ByteSize_le_of_begins (h.longest v ?_ (by omega))
    rw [String.toList_append]
    exact List.prefix_append _ _

theorem cutBack?_eq_some : cutBack? room s = some t := by
  rw [cutBack?, h.boundary, Option.bind_some]
  obtain ⟨u, rfl⟩ := h.exists_append
  exact firstBytes?_append t u

end IsClip

end Tenancy
