import Mathlib.Data.List.Basic
import Tenancy.Json.Reader
import Tenancy.Proofs.Text.Utf8

/-!
# Strings and integers as JSON

The written form of a string is read as the string, whatever characters it has, and the written form
of an integer of 64 bits as the integer.

* `readString_writeEscaped`: every byte is read back from its escape, and the bytes are UTF-8.
* `readNumber_digits`: the digits of a number are read as the number, if what follows cannot belong
  to a number.
-/

namespace Tenancy.Json

/-! ## What may follow a value -/

/-- What follows a value that stands alone, or in an array or an object. -/
def IsDelimited (rest : Bytes) : Prop := ∀ b ∈ rest.head?, b = 44 ∨ b = 93 ∨ b = 125

theorem isDelimited_nil : IsDelimited [] := by
  intro b hHead
  cases hHead

theorem isDelimited_cons {b : UInt8} {rest : Bytes} (h : b = 44 ∨ b = 93 ∨ b = 125) :
    IsDelimited (b :: rest) := by
  intro c hHead
  obtain rfl := Option.some.inj hHead
  exact h

def IsSpace (b : UInt8) : Prop := b = 32 ∨ b = 10 ∨ b = 9 ∨ b = 13

instance (b : UInt8) : Decidable (IsSpace b) := inferInstanceAs (Decidable (_ ∨ _))

theorem skipSpace_of_not_space {b : UInt8} (hNot : ¬ IsSpace b) (rest : Bytes) :
    skipSpace (b :: rest) = b :: rest := by
  rw [skipSpace]
  exact if_neg hNot

/-! ## Strings -/

section Strings

/-- A code point below 128 is its own form. -/
theorem codePoint_toNat {b : UInt8} (hLt : b < 32) : codePoint b.toNat = [b] := by
  have hNat : b.toNat < 32 := UInt8.lt_iff_toNat_lt.1 hLt
  rw [codePoint, utf8EncodeChar_ofNat (by omega), UInt8.ofNat_toNat]

theorem hexUnit?_control {b : UInt8} (hLt : b < 32) :
    hexUnit? 48 48 (hexByte (b.toNat / 16)) (hexByte (b.toNat % 16)) = some b.toNat := by
  have hNat : b.toNat < 32 := UInt8.lt_iff_toNat_lt.1 hLt
  have hAll : ∀ n < 32, hexUnit? 48 48 (hexByte (n / 16)) (hexByte (n % 16)) = some n := by decide
  exact hAll b.toNat hNat

/-- What is no escape is the byte itself, the closing quote, or a fault. -/
theorem readEscaped_cons {b : UInt8} (hNot : b ≠ 92) (read rest : Bytes) :
    readEscaped read (b :: rest) =
      if b = 34 then .ok (read.reverse, rest)
      else if b < 32 then .error .controlCharacter
      else readEscaped (b :: read) rest := by
  rw [readEscaped]
  all_goals
    intros
    contradiction

/-- The escape of a byte is read as the byte. -/
theorem readEscaped_escapeByte (read : Bytes) (b : UInt8) (rest : Bytes) :
    readEscaped read (escapeByte b ++ rest) = readEscaped (b :: read) rest := by
  rw [escapeByte]
  split_ifs with hQuote hSlash hBack hFeed hLine hReturn hTab hControl
  · subst hQuote
    rfl
  · subst hSlash
    rfl
  · subst hBack
    rfl
  · subst hFeed
    rfl
  · subst hLine
    rfl
  · subst hReturn
    rfl
  · subst hTab
    rfl
  · -- Any other control is written by its number, which is no surrogate.
    have hNat : b.toNat < 32 := UInt8.lt_iff_toNat_lt.1 hControl
    simp only [List.cons_append, List.nil_append]
    rw [readEscaped, hexUnit?_control hControl]
    dsimp only
    rw [if_neg (by omega), if_neg (by omega), codePoint_toNat hControl]
    rfl
  · rw [List.singleton_append, readEscaped_cons hSlash, if_neg hQuote, if_neg hControl]

theorem readEscaped_writeEscaped (read bytes rest : Bytes) :
    readEscaped read (writeEscaped bytes rest) = .ok (read.reverse ++ bytes, rest) := by
  induction bytes generalizing read with
  | nil =>
    rw [writeEscaped, readEscaped_cons (by decide), if_pos rfl, List.append_nil]
  | cons b bytes ih =>
    rw [writeEscaped, readEscaped_escapeByte, ih, List.reverse_cons, List.append_assoc]
    rfl

/-- A string is read back from its written form. -/
theorem readString_writeEscaped (s : String) (rest : Bytes) :
    readString (writeEscaped (utf8 s) rest) = .ok (s, rest) := by
  have hText : ofUtf8? (utf8 s) = some s := ofUtf8?_eq_some_iff.2 rfl
  rw [readString, readEscaped_writeEscaped]
  simp only [bind, Except.bind, List.reverse_nil, List.nil_append, hText]

end Strings

/-! ## Integers -/

section Integers

def digitBytes (digits : List Char) : Bytes := digits.map fun c => UInt8.ofNat c.toNat

theorem ascii_ofList (cs : List Char) : ascii (String.ofList cs) = digitBytes cs := by
  rw [ascii, String.toList_ofList]
  rfl

theorem toNat_of_isDigit {c : Char} (hDigit : c.isDigit = true) :
    (UInt8.ofNat c.toNat).toNat = c.toNat ∧ 48 ≤ c.toNat ∧ c.toNat ≤ 57 := by
  obtain ⟨hLow, hHigh⟩ := Char.isDigit_iff_toNat.1 hDigit
  change 48 ≤ c.toNat at hLow
  change c.toNat ≤ 57 at hHigh
  refine ⟨?_, hLow, hHigh⟩
  rw [UInt8.toNat_ofNat']
  omega

theorem isDigit_digitByte {c : Char} (hDigit : c.isDigit = true) :
    isDigit (UInt8.ofNat c.toNat) = true := by
  obtain ⟨hByte, hLow, hHigh⟩ := toNat_of_isDigit hDigit
  have hLowByte : (48 : UInt8) ≤ UInt8.ofNat c.toNat := by
    rw [UInt8.le_iff_toNat_le, hByte]
    exact hLow
  have hHighByte : UInt8.ofNat c.toNat ≤ 57 := by
    rw [UInt8.le_iff_toNat_le, hByte]
    exact hHigh
  rw [isDigit, decide_eq_true hLowByte, decide_eq_true hHighByte]
  rfl

/-- Appending digits never makes a number smaller. -/
theorem le_ofDigitChars (digits : List Char) (start : Nat) :
    start ≤ Nat.ofDigitChars 10 digits start := by
  rw [Nat.ofDigitChars_eq_ofDigitChars_zero]
  exact Nat.le_add_right_of_le (Nat.le_mul_of_pos_left start (Nat.pow_pos (by decide)))

theorem extend_digitBytes {digits : List Char} (hDigits : ∀ c ∈ digits, c.isDigit = true)
    {start : Nat} (hFits : Nat.ofDigitChars 10 digits start ≤ maxSignificand) :
    extend start (digitBytes digits) = (Nat.ofDigitChars 10 digits start, 0) := by
  induction digits generalizing start with
  | nil => rfl
  | cons c digits ih =>
    obtain ⟨hFirst, hRest⟩ := List.forall_mem_cons.1 hDigits
    have hByte := (toNat_of_isDigit hFirst).1
    rw [Nat.ofDigitChars_cons] at hFits ⊢
    have hNext : start * 10 + ((UInt8.ofNat c.toNat).toNat - 48) =
        10 * start + (c.toNat - '0'.toNat) := by
      rw [hByte, Nat.mul_comm]
      rfl
    have hLe := Nat.le_trans (le_ofDigitChars digits _) hFits
    change extend start (UInt8.ofNat c.toNat :: digitBytes digits) = _
    rw [extend, hNext, if_pos hLe]
    exact ih hRest hFits

/-- The first digit of a number is zero only for zero itself. -/
theorem head?_toDigits_ne_zero {n : Nat} (hPos : 0 < n) : (Nat.toDigits 10 n).head? ≠ some '0' := by
  induction n using Nat.strongRecOn with
  | ind n ih =>
    by_cases hSmall : n < 10
    · rw [Nat.toDigits_of_lt_base hSmall, List.head?_cons]
      intro hZero
      have hDigit := Nat.digitChar_eq_zero.1 (Option.some.inj hZero)
      omega
    · have hLarge : 10 ≤ n := Nat.le_of_not_lt hSmall
      have hTenth := ih (n / 10) (by omega) (by omega)
      rw [Nat.toDigits_of_base_le (by decide) hLarge]
      cases hDigits : Nat.toDigits 10 (n / 10) with
      | nil => exact absurd hDigits Nat.toDigits_ne_nil
      | cons c cs =>
        rw [hDigits] at hTenth
        exact hTenth

def numeralBytes (n : Nat) : Bytes := digitBytes (Nat.toDigits 10 n)

theorem isDigit_of_mem_numeralBytes {n : Nat} {b : UInt8} (hMem : b ∈ numeralBytes n) :
    isDigit b = true := by
  obtain ⟨c, hDigit, rfl⟩ := List.mem_map.1 hMem
  exact isDigit_digitByte (Nat.isDigit_of_mem_toDigits (by decide) (by decide) hDigit)

theorem exists_numeralBytes (n : Nat) : ∃ b bytes, numeralBytes n = b :: bytes := by
  cases hDigits : Nat.toDigits 10 n with
  | nil => exact absurd hDigits Nat.toDigits_ne_nil
  | cons c cs => exact ⟨_, _, congrArg digitBytes hDigits⟩

theorem extend_numeralBytes {n : Nat} (hFits : n ≤ maxSignificand) :
    extend 0 (numeralBytes n) = (n, 0) := by
  have hValue : Nat.ofDigitChars 10 (Nat.toDigits 10 n) 0 = n := Nat.ofDigitChars_ten_toDigits
  have hDigits : ∀ c ∈ Nat.toDigits 10 n, c.isDigit = true := fun c hMem =>
    Nat.isDigit_of_mem_toDigits (by decide) (by decide) hMem
  rw [numeralBytes, extend_digitBytes hDigits (by rwa [hValue]), hValue]

/-- Nothing in a number is what follows a value. -/
theorem not_isDigit_of_isDelimited {rest : Bytes} (hRest : IsDelimited rest) :
    ∀ b ∈ rest.head?, isDigit b = false := by
  intro b hHead
  rcases hRest b hHead with rfl | rfl | rfl <;> rfl

theorem takeWhile_numeralBytes (n : Nat) {rest : Bytes} (hRest : IsDelimited rest) :
    (numeralBytes n ++ rest).takeWhile isDigit = numeralBytes n ∧
      (numeralBytes n ++ rest).dropWhile isDigit = rest := by
  have hDigits : ∀ b ∈ numeralBytes n, isDigit b = true := fun _ => isDigit_of_mem_numeralBytes
  rw [List.takeWhile_append_of_pos hDigits, List.dropWhile_append_of_pos hDigits]
  cases rest with
  | nil => exact ⟨List.append_nil _, rfl⟩
  | cons b rest =>
    have hNot := not_isDigit_of_isDelimited hRest b rfl
    rw [List.takeWhile_cons_of_neg (by simp [hNot]), List.dropWhile_cons_of_neg (by simp [hNot])]
    exact ⟨List.append_nil _, rfl⟩

/-- A number is not written with a zero in front. -/
theorem numeralBytes_head {n : Nat} {b : UInt8} {bytes rest : Bytes}
    (hBytes : numeralBytes n = b :: bytes) (hRest : IsDelimited rest) :
    ¬ (b = 48 ∧ ((bytes ++ rest).head?.map isDigit).getD false = true) := by
  rintro ⟨rfl, hNext⟩
  by_cases hZero : n = 0
  · subst hZero
    obtain ⟨-, rfl⟩ := List.cons.inj (hBytes.symm.trans (rfl : numeralBytes 0 = [48]))
    cases rest with
    | nil => cases hNext
    | cons c rest =>
      have hDigit : isDigit c = true := hNext
      rw [not_isDigit_of_isDelimited hRest c rfl] at hDigit
      cases hDigit
  · have hHead := head?_toDigits_ne_zero (Nat.pos_of_ne_zero hZero)
    cases hDigits : Nat.toDigits 10 n with
    | nil => exact absurd hDigits Nat.toDigits_ne_nil
    | cons c cs =>
      have hMem : c ∈ Nat.toDigits 10 n := hDigits ▸ List.mem_cons_self
      obtain ⟨hByte, -, -⟩ :=
        toNat_of_isDigit (Nat.isDigit_of_mem_toDigits (by decide) (by decide) hMem)
      rw [numeralBytes, hDigits] at hBytes
      have hFirst : UInt8.ofNat c.toNat = 48 := (List.cons.inj hBytes).1
      rw [hFirst] at hByte
      rw [hDigits, List.head?_cons] at hHead
      exact hHead (congrArg some (Char.toNat_inj.1 hByte.symm))

/-- A number that fits 64 bits is read back from its written form. -/
theorem readNumber_digits (negative : Bool) {n : Nat} (hFits : n ≤ maxSignificand) {rest : Bytes}
    (hRest : IsDelimited rest) :
    readNumber negative (numeralBytes n ++ rest) = .ok (integer negative n, rest) := by
  obtain ⟨hTake, hDrop⟩ := takeWhile_numeralBytes n hRest
  obtain ⟨b, bytes, hBytes⟩ := exists_numeralBytes n
  have hDigit : isDigit b = true := isDigit_of_mem_numeralBytes (hBytes ▸ List.mem_cons_self)
  have hHead := numeralBytes_head hBytes hRest
  have hInput : numeralBytes n ++ rest = b :: (bytes ++ rest) := by
    rw [hBytes]
    rfl
  rw [hInput]
  unfold readNumber
  dsimp only
  rw [← hInput, hTake, hDrop, if_neg (by simp [hDigit]), if_neg hHead, extend_numeralBytes hFits]
  dsimp only
  -- What follows begins neither a fraction nor an exponent.
  cases rest with
  | nil => rfl
  | cons c rest => rcases hRest c rfl with rfl | rfl | rfl <;> rfl

end Integers

end Tenancy.Json
