import Mathlib.Data.String.Basic
import Tenancy.Text.Utf8

/-!
# Clipped texts

A text that is too long is cut between two characters, as late as its room in bytes allows.

* `IsClip`: what is kept of a text.
* `isClip_clipBytes`: this is what `clipBytes` gives.
-/

namespace Tenancy

open String (utf8Len)

variable {room : Nat} {s t : String} {cs ds : List Char}

/-! ## Characters -/

theorem takeBytes_begins (room : Nat) (cs : List Char) : takeBytes room cs <+: cs := by
  induction cs generalizing room with
  | nil => exact List.nil_prefix
  | cons c cs ih =>
    rw [takeBytes]
    split
    · exact (List.prefix_cons_inj c).2 (ih _)
    · exact List.nil_prefix

theorem utf8Len_takeBytes_le (room : Nat) (cs : List Char) :
    utf8Len (takeBytes room cs) ≤ room := by
  induction cs generalizing room with
  | nil => exact Nat.zero_le room
  | cons c cs ih =>
    rw [takeBytes]
    split
    · have hRest := ih (room - c.utf8Size)
      rw [String.utf8Len_cons]
      omega
    · exact Nat.zero_le room

/-- Every beginning for which there is room is kept. -/
theorem prefix_takeBytes (hBegins : ds <+: cs) (hFits : utf8Len ds ≤ room) :
    ds <+: takeBytes room cs := by
  induction cs generalizing room ds with
  | nil => exact hBegins
  | cons c cs ih =>
    cases ds with
    | nil => exact List.nil_prefix
    | cons d ds =>
      obtain ⟨rfl, hRest⟩ := List.cons_prefix_cons.1 hBegins
      rw [String.utf8Len_cons] at hFits
      rw [takeBytes, if_pos (by omega), List.prefix_cons_inj]
      exact ih hRest (by omega)

theorem utf8Len_of_forall_one (hOne : ∀ c ∈ cs, c.utf8Size = 1) : utf8Len cs = cs.length := by
  induction cs with
  | nil => rfl
  | cons c cs ih =>
    obtain ⟨hHead, hTail⟩ := List.forall_mem_cons.1 hOne
    rw [String.utf8Len_cons, ih hTail, hHead, List.length_cons]

/-! ## Texts -/

/-- `t` is the longest beginning of `s` that has at most `room` bytes. -/
structure IsClip (room : Nat) (s t : String) : Prop where
  begins : t.toList <+: s.toList
  fits : t.utf8ByteSize ≤ room
  longest : ∀ u : String, u.toList <+: s.toList → u.utf8ByteSize ≤ room → u.toList <+: t.toList

theorem isClip_clipBytes (room : Nat) (s : String) : IsClip room s (clipBytes room s) where
  begins := by
    rw [clipBytes, String.toList_ofList]
    exact takeBytes_begins room s.toList
  fits := by
    rw [clipBytes, String.utf8ByteSize_ofList]
    exact utf8Len_takeBytes_le room s.toList
  longest u hBegins hFits := by
    rw [clipBytes, String.toList_ofList]
    exact prefix_takeBytes hBegins (u.utf8Len_toList ▸ hFits)

end Tenancy
