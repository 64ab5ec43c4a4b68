import Mathlib.Data.List.Forall2
import Mathlib.Data.List.Induction
import Mathlib.Tactic.Ring
import Tenancy.Proofs.Base64

/-!
# Base 64 as a regrouping of binary digits

Side by side, the six digits of every symbol are the eight digits of every byte, followed by fewer
than six zeros.  This says what symbols spell without a word on groups of three and four, and it is
what reading and writing do.

* `Base64.Spells`: the symbols have the digits of the bytes.
* `Base64.decode_eq_ok_iff_spells`: what is read is what is spelled.
* `Base64.misspelled_iff`: symbols that spell nothing have one of four faults.
-/

namespace Tenancy.Base64

variable {symbols bytes : Bytes}

/-! ## Binary digits -/

/-- The last `width` binary digits of a number, the highest first. -/
def digits : Nat → Nat → List Bool
  | 0, _ => []
  | width + 1, n => digits width (n / 2) ++ [decide (n % 2 = 1)]

@[simp]
theorem length_digits (width n : Nat) : (digits width n).length = width := by
  induction width generalizing n with
  | zero => rfl
  | succ width ih => rw [digits, List.length_append, ih, List.length_singleton]

/-- The digits of a number that is put together from two. -/
theorem digits_pack {n y : Nat} (m x : Nat) (hy : y < 2 ^ n) :
    digits (m + n) (x * 2 ^ n + y) = digits m x ++ digits n y := by
  induction n generalizing y with
  | zero =>
    obtain rfl : y = 0 := by omega
    simp [digits]
  | succ n ih =>
    have hPow : x * 2 ^ (n + 1) = 2 * (x * 2 ^ n) := by ring
    have hHalf : (x * 2 ^ (n + 1) + y) / 2 = x * 2 ^ n + y / 2 := by omega
    have hLast : (x * 2 ^ (n + 1) + y) % 2 = y % 2 := by omega
    rw [← Nat.add_assoc, digits, hHalf, hLast, ih (by omega), digits, List.append_assoc]

/-- The digits of a number that is taken apart. -/
theorem digits_split (m n x : Nat) :
    digits (m + n) x = digits m (x / 2 ^ n) ++ digits n (x % 2 ^ n) := by
  have hParts : x / 2 ^ n * 2 ^ n + x % 2 ^ n = x := by
    rw [Nat.mul_comm]
    exact Nat.div_add_mod x _
  rw [← digits_pack m _ (Nat.mod_lt x (Nat.two_pow_pos n)), hParts]

theorem digits_zero (width : Nat) : digits width 0 = List.replicate width false := by
  induction width with
  | zero => rfl
  | succ width ih => rw [digits, Nat.zero_div, ih, List.replicate_succ']; rfl

theorem digits_injective {width x y : Nat} (hx : x < 2 ^ width) (hy : y < 2 ^ width)
    (hEq : digits width x = digits width y) : x = y := by
  induction width generalizing x y with
  | zero => omega
  | succ width ih =>
    obtain ⟨hFront, hLast⟩ := List.append_inj' hEq rfl
    have hHalf : x / 2 = y / 2 := ih (by omega) (by omega) hFront
    have hParity : x % 2 = 1 ↔ y % 2 = 1 := by simpa using hLast
    omega

/-- All digits are the digits of a number. -/
theorem exists_digits (ds : List Bool) : ∃ n < 2 ^ ds.length, digits ds.length n = ds := by
  induction ds using List.reverseRecOn with
  | nil => exact ⟨0, by simp, rfl⟩
  | append_singleton ds d ih =>
    obtain ⟨n, hLt, hDigits⟩ := ih
    have hd : d.toNat < 2 := d.toNat_lt
    refine ⟨2 * n + d.toNat, ?_, ?_⟩
    · rw [List.length_append, List.length_singleton, Nat.pow_succ]
      omega
    · have hHalf : (2 * n + d.toNat) / 2 = n := by omega
      have hLast : (2 * n + d.toNat) % 2 = d.toNat := by omega
      rw [List.length_append, List.length_singleton, digits, hHalf, hLast, hDigits]
      cases d <;> rfl

/-! ## Spelling -/

/-- The digits of bytes, eight for each. -/
def octets (bytes : Bytes) : List Bool := bytes.flatMap fun b => digits 8 b.toNat

def sextets (values : List Nat) : List Bool := values.flatMap (digits 6)

/-- The symbols stand in the alphabet at the places `values`. -/
def StandFor (symbols : Bytes) (values : List Nat) : Prop :=
  List.Forall₂ (fun b n => alphabet[n]? = some b) symbols values

/-- The digits of the symbols are those of the bytes and then fewer than six zeros. -/
inductive Spells (symbols bytes : Bytes) : Prop
  | intro (values : List Nat) (spare : Nat) (hValues : StandFor symbols values) (hSpare : spare < 6)
      (hDigits : sextets values = octets bytes ++ List.replicate spare false)

theorem length_flatMap_digits {β : Type} (width : Nat) (value : β → Nat) (l : List β) :
    (l.flatMap fun b => digits width (value b)).length = width * l.length := by
  induction l with
  | nil => rfl
  | cons b l ih =>
    rw [List.flatMap_cons, List.length_append, length_digits, ih, List.length_cons, Nat.mul_succ,
      Nat.add_comm]

@[simp]
theorem length_octets (bytes : Bytes) : (octets bytes).length = 8 * bytes.length :=
  length_flatMap_digits 8 UInt8.toNat bytes

@[simp]
theorem length_sextets (values : List Nat) : (sextets values).length = 6 * values.length :=
  length_flatMap_digits 6 (fun n => n) values

theorem alphabet_eq : alphabet = (List.range 64).map symbol := by decide +kernel

theorem alphabet_eq_some_iff {n : Nat} {b : UInt8} :
    alphabet[n]? = some b ↔ n < 64 ∧ symbol n = b := by
  rw [alphabet_eq, List.getElem?_map]
  by_cases hLt : n < 64
  · simp [hLt]
  · simp [hLt]

/-! ## What is written -/

theorem standFor_nil : StandFor [] [] := .nil

theorem StandFor.cons {values : List Nat} {n : Nat} (h : StandFor symbols values) (hn : n < 64) :
    StandFor (symbol n :: symbols) (n :: values) :=
  List.Forall₂.cons (alphabet_eq_some_iff.2 ⟨hn, rfl⟩) h

/-- Where the first symbol of a group ends. -/
theorem digits_byte_six (x : Nat) : digits 8 x = digits 6 (x / 4) ++ digits 2 (x % 4) :=
  digits_split 6 2 x

/-- Where the second symbol of a group ends. -/
theorem digits_byte_four (x : Nat) : digits 8 x = digits 4 (x / 16) ++ digits 4 (x % 16) :=
  digits_split 4 4 x

/-- Where the third symbol of a group ends. -/
theorem digits_byte_two (x : Nat) : digits 8 x = digits 2 (x / 64) ++ digits 6 (x % 64) :=
  digits_split 2 6 x

/-- Where the first byte of a group ends. -/
theorem digits_symbol_two {x y : Nat} (hy : y < 16) :
    digits 6 (x * 16 + y) = digits 2 x ++ digits 4 y := digits_pack (n := 4) 2 x hy

/-- Where the second byte of a group ends. -/
theorem digits_symbol_four {x y : Nat} (hy : y < 4) :
    digits 6 (x * 4 + y) = digits 4 x ++ digits 2 y := digits_pack (n := 2) 4 x hy

/-- What is written spells the bytes.  The cases are those of the groups, and in each the digits are
cut wherever a byte or a symbol ends. -/
theorem spells_encode (bytes : Bytes) : Spells (encode bytes) bytes := by
  induction bytes using encode.induct with
  | case1 => exact .intro [] 0 .nil (by omega) rfl
  | case2 a =>
    have ha := a.toNat_lt
    have hLast : digits 6 (a.toNat % 4 * 16 + 0) = digits 2 (a.toNat % 4) ++ digits 4 0 :=
      digits_symbol_two (by omega)
    rw [encode]
    refine .intro [a.toNat / 4, a.toNat % 4 * 16] 4 ?_ (by omega) ?_
    · exact (standFor_nil.cons (by omega)).cons (by omega)
    · simpa [sextets, octets, digits_byte_six a.toNat, digits_zero] using hLast
  | case3 a b =>
    have ha := a.toNat_lt
    have hb := b.toNat_lt
    have hMiddle : digits 6 (a.toNat % 4 * 16 + b.toNat / 16) =
        digits 2 (a.toNat % 4) ++ digits 4 (b.toNat / 16) := digits_symbol_two (by omega)
    have hLast : digits 6 (b.toNat % 16 * 4 + 0) = digits 4 (b.toNat % 16) ++ digits 2 0 :=
      digits_symbol_four (by omega)
    rw [encode]
    refine .intro [a.toNat / 4, a.toNat % 4 * 16 + b.toNat / 16, b.toNat % 16 * 4] 2 ?_
      (by omega) ?_
    · exact ((standFor_nil.cons (by omega)).cons (by omega)).cons (by omega)
    · simpa [sextets, octets, digits_byte_six a.toNat, digits_byte_four b.toNat, hMiddle,
        digits_zero] using hLast
  | case4 a b c rest ih =>
    have ha := a.toNat_lt
    have hb := b.toNat_lt
    have hc := c.toNat_lt
    have hMiddle : digits 6 (a.toNat % 4 * 16 + b.toNat / 16) =
        digits 2 (a.toNat % 4) ++ digits 4 (b.toNat / 16) := digits_symbol_two (by omega)
    have hLater : digits 6 (b.toNat % 16 * 4 + c.toNat / 64) =
        digits 4 (b.toNat % 16) ++ digits 2 (c.toNat / 64) := digits_symbol_four (by omega)
    obtain ⟨values, spare, hValues, hSpare, hDigits⟩ := ih
    rw [encode]
    refine .intro (a.toNat / 4 :: (a.toNat % 4 * 16 + b.toNat / 16) ::
      (b.toNat % 16 * 4 + c.toNat / 64) :: c.toNat % 64 :: values) spare ?_ hSpare ?_
    · exact (((hValues.cons (by omega)).cons (by omega)).cons (by omega)).cons (by omega)
    · rw [sextets, octets] at hDigits
      simp [sextets, octets, digits_byte_six a.toNat, digits_byte_four b.toNat,
        digits_byte_two c.toNat, hMiddle, hLater, hDigits]

/-! ## What is read -/

theorem StandFor.lt {values : List Nat} (h : StandFor symbols values) : ∀ n ∈ values, n < 64 := by
  induction h with
  | nil => exact List.forall_mem_nil _
  | cons hHead _ ih => exact List.forall_mem_cons.2 ⟨(alphabet_eq_some_iff.1 hHead).1, ih⟩

/-- A place in the alphabet has one symbol. -/
theorem StandFor.unique {values : List Nat} {others : Bytes} (h : StandFor symbols values)
    (hOther : StandFor others values) : symbols = others := by
  induction h generalizing others with
  | nil =>
    cases hOther
    rfl
  | cons hHead _ ih =>
    cases hOther with
    | cons hOther hRest => rw [Option.some.inj (hHead.symm.trans hOther), ih hRest]

/-- A symbol has one place in the alphabet. -/
theorem StandFor.values_unique {values others : List Nat} (h : StandFor symbols values)
    (hOther : StandFor symbols others) : values = others := by
  induction h generalizing others with
  | nil =>
    cases hOther
    rfl
  | @cons b n symbols values hHead _ ih =>
    cases hOther with
    | @cons _ m _ others hOther hRest =>
      obtain ⟨hn, hSymbol⟩ := alphabet_eq_some_iff.1 hHead
      obtain ⟨hm, hSame⟩ := alphabet_eq_some_iff.1 hOther
      have hValue : value? b = some n := hSymbol ▸ value?_symbol hn
      rw [← hSame, value?_symbol hm] at hValue
      rw [← Option.some.inj hValue, ih hRest]

theorem sextets_injective {values others : List Nat} (hSmall : ∀ n ∈ values, n < 64)
    (hOthers : ∀ n ∈ others, n < 64) (hLength : values.length = others.length)
    (hEq : sextets values = sextets others) : values = others := by
  induction values generalizing others with
  | nil => exact (List.length_eq_zero_iff.1 hLength.symm).symm
  | cons n values ih =>
    cases others with
    | nil => cases hLength
    | cons m others =>
      obtain ⟨hn, hSmall⟩ := List.forall_mem_cons.1 hSmall
      obtain ⟨hm, hOthers⟩ := List.forall_mem_cons.1 hOthers
      obtain ⟨hHead, hTail⟩ := List.append_inj hEq (by simp)
      rw [digits_injective hn hm hHead, ih hSmall hOthers (Nat.succ.inj hLength) hTail]

/-- Bytes have one spelling: the number of zeros is the remainder that is needed. -/
theorem Spells.unique {others : Bytes} (h : Spells symbols bytes) (hOther : Spells others bytes) :
    symbols = others := by
  obtain ⟨values, spare, hValues, hSpare, hDigits⟩ := h
  obtain ⟨values', spare', hValues', hSpare', hDigits'⟩ := hOther
  have hLength : 6 * values.length = 8 * bytes.length + spare := by
    simpa using congrArg List.length hDigits
  have hLength' : 6 * values'.length = 8 * bytes.length + spare' := by
    simpa using congrArg List.length hDigits'
  obtain rfl : spare = spare' := by omega
  obtain rfl : values = values' :=
    sextets_injective hValues.lt hValues'.lt (by omega) (hDigits.trans hDigits'.symm)
  exact hValues.unique hValues'

theorem encode_eq_iff_spells : encode bytes = symbols ↔ Spells symbols bytes := by
  refine ⟨?_, (spells_encode bytes).unique⟩
  rintro rfl
  exact spells_encode bytes

theorem decode_eq_ok_iff_spells : decode symbols = .ok bytes ↔ Spells symbols bytes :=
  decode_eq_ok_iff.trans encode_eq_iff_spells

/-! ## What cannot be read -/

/-- What may be wrong with symbols: one of them is not in the alphabet, and that may be the sign
that pads elsewhere; one is left over when the others stand in fours; or a digit is set after the
last whole byte. -/
inductive Misspelled (symbols : Bytes) : Prop
  | foreign (b : UInt8) (hMem : b ∈ symbols) (hForeign : b ∉ alphabet)
  | padded (hMem : padByte ∈ symbols)
  | lone (hLength : symbols.length % 4 = 1)
  | trailing (values : List Nat) (hValues : StandFor symbols values)
      (hSet : true ∈ (sextets values).drop (8 * (6 * values.length / 8)))

theorem padByte_not_mem_alphabet : padByte ∉ alphabet := by decide +kernel

theorem StandFor.mem_alphabet {values : List Nat} (h : StandFor symbols values) :
    ∀ b ∈ symbols, b ∈ alphabet := by
  induction h with
  | nil => exact List.forall_mem_nil _
  | cons hHead _ ih => exact List.forall_mem_cons.2 ⟨List.mem_of_getElem? hHead, ih⟩

theorem exists_standFor (hAlphabet : ∀ b ∈ symbols, b ∈ alphabet) :
    ∃ values, StandFor symbols values := by
  induction symbols with
  | nil => exact ⟨[], .nil⟩
  | cons b symbols ih =>
    obtain ⟨hHead, hTail⟩ := List.forall_mem_cons.1 hAlphabet
    obtain ⟨n, hPlace⟩ := List.mem_iff_getElem?.1 hHead
    obtain ⟨values, hValues⟩ := ih hTail
    exact ⟨n :: values, List.Forall₂.cons hPlace hValues⟩

/-- Digits in eights are the digits of bytes. -/
theorem exists_octets {n : Nat} {ds : List Bool} (hLength : ds.length = 8 * n) :
    ∃ bytes, bytes.length = n ∧ octets bytes = ds := by
  induction n generalizing ds with
  | zero => exact ⟨[], rfl, (List.length_eq_zero_iff.1 (by omega)).symm⟩
  | succ n ih =>
    have hLater : (ds.drop 8).length = 8 * n := by simp; omega
    obtain ⟨bytes, hBytes, hRest⟩ := ih hLater
    have hEight : (ds.take 8).length = 8 := by simp; omega
    obtain ⟨k, hLt, hDigits⟩ := exists_digits (ds.take 8)
    rw [hEight] at hLt hDigits
    refine ⟨UInt8.ofNat k :: bytes, by rw [List.length_cons, hBytes], ?_⟩
    rw [octets, List.flatMap_cons, toNat_ofNat hLt, hDigits, ← octets, hRest,
      List.take_append_drop]

/-- Symbols of the alphabet spell bytes unless one is left over, or a digit is set after the last
whole byte. -/
theorem spells_or_misspelled {values : List Nat} (hValues : StandFor symbols values) :
    (∃ bytes, Spells symbols bytes) ∨ Misspelled symbols := by
  have hLength : symbols.length = values.length := hValues.length_eq
  by_cases hLone : values.length % 4 = 1
  · exact .inr (.lone (hLength ▸ hLone))
  by_cases hSet : true ∈ (sextets values).drop (8 * (6 * values.length / 8))
  · exact .inr (.trailing values hValues hSet)
  have hWhole : ((sextets values).take (8 * (6 * values.length / 8))).length =
      8 * (6 * values.length / 8) := by simp; omega
  obtain ⟨bytes, -, hBytes⟩ := exists_octets hWhole
  refine .inl ⟨bytes, .intro values (6 * values.length % 8) hValues (by omega) ?_⟩
  have hZeros : (sextets values).drop (8 * (6 * values.length / 8)) =
      List.replicate (6 * values.length % 8) false := by
    refine List.eq_replicate_iff.2 ⟨by simp; omega, fun d hMem => ?_⟩
    cases d with
    | false => rfl
    | true => exact absurd hMem hSet
  rw [hBytes, ← hZeros, List.take_append_drop]

theorem Misspelled.not_spells (h : Misspelled symbols) : ¬ Spells symbols bytes := by
  rintro ⟨values, spare, hValues, hSpare, hDigits⟩
  have hLength : 6 * values.length = 8 * bytes.length + spare := by
    simpa using congrArg List.length hDigits
  cases h with
  | foreign b hMem hForeign => exact hForeign (hValues.mem_alphabet b hMem)
  | padded hMem => exact padByte_not_mem_alphabet (hValues.mem_alphabet _ hMem)
  | lone hLone =>
    rw [hValues.length_eq] at hLone
    omega
  | trailing values' hValues' hSet =>
    obtain rfl : values' = values := hValues'.values_unique hValues
    have hWhole : 8 * (6 * values'.length / 8) = (octets bytes).length := by
      rw [length_octets]
      omega
    rw [hDigits, hWhole, List.drop_left] at hSet
    cases List.eq_of_mem_replicate hSet

/-- Symbols spell no bytes exactly if something is wrong with them. -/
theorem misspelled_iff : Misspelled symbols ↔ ∀ bytes, ¬ Spells symbols bytes := by
  refine ⟨fun h _ => h.not_spells, fun hNone => ?_⟩
  by_cases hAlphabet : ∀ b ∈ symbols, b ∈ alphabet
  · obtain ⟨values, hValues⟩ := exists_standFor hAlphabet
    rcases spells_or_misspelled hValues with ⟨bytes, hSpells⟩ | h
    · exact absurd hSpells (hNone bytes)
    · exact h
  · push Not at hAlphabet
    obtain ⟨b, hMem, hForeign⟩ := hAlphabet
    exact .foreign b hMem hForeign

end Tenancy.Base64
