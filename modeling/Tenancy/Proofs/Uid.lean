import Mathlib.Algebra.Ring.Nat
import Tenancy.Uid

/-!
# Identifiers are read back from their text

`Uid.read_text`: the 32 hexadecimal digits of an identifier, in their groups, are read as the
identifier.
-/

namespace Tenancy.Uid

/-! ## Hexadecimal digits -/

theorem hexValue?_hexDigit {n : Nat} (hLt : n < 16) : hexValue? (hexDigit n) = some n := by
  have hAll : ∀ n < 16, hexValue? (hexDigit n) = some n := by decide
  exact hAll n hLt

theorem length_hexDigits (n value : Nat) : (hexDigits n value).length = n := by
  induction n generalizing value with
  | zero => rfl
  | succ n ih => rw [hexDigits, List.length_append, ih, List.length_singleton]

theorem isSome_hexValue?_of_mem {n value : Nat} {c : Char} (hMem : c ∈ hexDigits n value) :
    (hexValue? c).isSome := by
  induction n generalizing value with
  | zero => cases hMem
  | succ n ih =>
    rcases List.mem_append.1 hMem with hFirst | hLast
    · exact ih hFirst
    · obtain rfl := List.mem_singleton.1 hLast
      rw [hexValue?_hexDigit (Nat.mod_lt _ (by decide))]
      rfl

/-- The digits of a number are read as the number, up to a power of 16. -/
theorem readDigits?_hexDigits (n value : Nat) :
    readDigits? (hexDigits n value) = some (value % 16 ^ n) := by
  induction n generalizing value with
  | zero => rw [Nat.pow_zero, Nat.mod_one]; rfl
  | succ n ih =>
    have hSplit : value / 16 % 16 ^ n * 16 + value % 16 = value % 16 ^ (n + 1) := by
      rw [Nat.pow_succ', Nat.mod_mul]
      omega
    have hFirst := ih (value / 16)
    unfold readDigits? at hFirst ⊢
    rw [hexDigits, List.foldlM_append, hFirst, ← hSplit]
    simp [hexValue?_hexDigit (Nat.mod_lt value (by decide))]

/-! ## Groups -/

theorem ungrouped?_groups {a b c d e : List Char} (ha : a.length = 8) (hb : b.length = 4)
    (hc : c.length = 4) (hd : d.length = 4) (he : e.length = 12) :
    ungrouped? (a ++ '-' :: b ++ '-' :: c ++ '-' :: d ++ '-' :: e) =
      some (a ++ b ++ c ++ d ++ e) := by
  have hHyphens : [8, 13, 18, 23].all (fun i =>
      (a ++ '-' :: b ++ '-' :: c ++ '-' :: d ++ '-' :: e)[i]? = some '-') = true := by
    simp [List.getElem?_append, ha, hb, hc, hd]
  have hLength : (a ++ '-' :: b ++ '-' :: c ++ '-' :: d ++ '-' :: e).length = 36 := by
    simp [ha, hb, hc, hd, he]
  rw [ungrouped?, if_pos ⟨hLength, hHyphens⟩]
  simp (disch := omega) [List.drop_append, List.drop_of_length_le, ha, hb, hc, hd]

/-- A text that begins with a hexadecimal digit is not wrapped in anything. -/
theorem unwrapped_of_hexDigit {c : Char} (hDigit : (hexValue? c).isSome) (cs : List Char) :
    unwrapped (c :: cs) = none := by
  have hBrace : c ≠ '\x7b' := by
    rintro rfl
    cases hDigit
  have hWord : c ≠ 'u' := by
    rintro rfl
    cases hDigit
  rw [unwrapped, if_neg (by simp [hBrace]), if_neg (by simp [hWord.symm])]

def groups (digits : List Char) : List Char :=
  digits.take 8 ++ '-' :: (digits.drop 8).take 4 ++ '-' :: (digits.drop 12).take 4 ++
    '-' :: (digits.drop 16).take 4 ++ '-' :: digits.drop 20

theorem ungrouped?_groups_digits {digits : List Char} (hLength : digits.length = 32) :
    ungrouped? (groups digits) = some digits := by
  have hDrop : ∀ m n, digits.drop (m + n) = (digits.drop m).drop n := fun m n => by
    rw [List.drop_drop]
  have hJoin : digits.take 8 ++ (digits.drop 8).take 4 ++ (digits.drop 12).take 4 ++
      (digits.drop 16).take 4 ++ digits.drop 20 = digits := by
    rw [hDrop 16 4, List.append_assoc, List.take_append_drop, hDrop 12 4, List.append_assoc,
      List.take_append_drop, hDrop 8 4, List.append_assoc, List.take_append_drop,
      List.take_append_drop]
  rw [groups, ungrouped?_groups (by simp [hLength]) (by simp [hLength]) (by simp [hLength])
    (by simp [hLength]) (by simp [hLength]), hJoin]

/-- An identifier is read back from its text. -/
theorem read_text (u : Uid) : read u.text = .ok u := by
  have hLength := length_hexDigits 32 u.bits.toNat
  have hRead := readDigits?_hexDigits 32 u.bits.toNat
  have hHex : ∀ c ∈ hexDigits 32 u.bits.toNat, (hexValue? c).isSome := fun _ =>
    isSome_hexValue?_of_mem
  have hLt : u.bits.toNat < 16 ^ 32 := Nat.lt_of_lt_of_eq u.bits.isLt (by decide)
  rw [Nat.mod_eq_of_lt hLt] at hRead
  have hText : u.text.toList = groups (hexDigits 32 u.bits.toNat) := String.toList_ofList
  generalize hexDigits 32 u.bits.toNat = digits at *
  have hUnwrapped : unwrapped (groups digits) = none := by
    cases digits with
    | nil => cases hLength
    | cons c cs => exact unwrapped_of_hexDigit (hHex c List.mem_cons_self) _
  have hLong : (groups digits).length ≠ 32 := by
    simp [groups, hLength]
  have hChars : readChars? (groups digits) = some u := by
    simp [readChars?, hUnwrapped, hLong, ungrouped?_groups_digits hLength, hRead]
  rw [read, hText, hChars]

end Tenancy.Uid
