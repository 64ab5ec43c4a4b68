import Mathlib.Tactic.SplitIfs
import Tenancy.Base64

/-!
# Reading and writing base 64

Reading is the inverse of writing, in both directions: what is written is read back, and symbols
that can be read are what is written of their bytes.

* `Base64.decode_eq_ok_iff`: both directions.
* `Base64.encode_ascii`: all symbols are ASCII.
-/

namespace Tenancy.Base64

/-! ## Symbols -/

theorem value?_symbol {n : Nat} (hLt : n < 64) : value? (symbol n) = some n := by
  have hAll : ∀ n < 64, value? (symbol n) = some n := by decide
  exact hAll n hLt

theorem symbol_ascii (n : Nat) : symbol n < 128 := by
  unfold symbol
  split_ifs <;> simp [UInt8.lt_iff_toNat_lt] <;> omega

theorem eq_symbol_of_value? {b : UInt8} {n : Nat} (hValue : value? b = some n) :
    n < 64 ∧ symbol n = b := by
  have hAll : ∀ k < 256, ∀ n ∈ value? (UInt8.ofNat k), n < 64 ∧ symbol n = UInt8.ofNat k := by
    decide +kernel
  have hByte := hAll b.toNat b.toNat_lt n
  rw [UInt8.ofNat_toNat] at hByte
  exact hByte hValue

/-! ## Writing, then reading -/

theorem ofNat_eq {n : Nat} {b : UInt8} (hEq : n = b.toNat) : UInt8.ofNat n = b := by
  rw [hEq, UInt8.ofNat_toNat]

theorem decode?_encode (bytes : Bytes) : decode? (encode bytes) = some bytes := by
  induction bytes using encode.induct with
  | case1 => rfl
  | case2 a =>
    have ha := a.toNat_lt
    have hByte : UInt8.ofNat (a.toNat / 4 * 4 + a.toNat % 4 * 16 / 16) = a := ofNat_eq (by omega)
    simp (disch := omega) only [encode, decode?, value?_symbol, Option.bind_eq_bind,
      Option.bind_some, hByte]
    exact if_pos (by omega)
  | case3 a b =>
    have ha := a.toNat_lt
    have hb := b.toNat_lt
    have hFirst : UInt8.ofNat (a.toNat / 4 * 4 + (a.toNat % 4 * 16 + b.toNat / 16) / 16) = a :=
      ofNat_eq (by omega)
    have hSecond : UInt8.ofNat ((a.toNat % 4 * 16 + b.toNat / 16) % 16 * 16 +
        b.toNat % 16 * 4 / 4) = b := ofNat_eq (by omega)
    simp (disch := omega) only [encode, decode?, value?_symbol, Option.bind_eq_bind,
      Option.bind_some, hFirst, hSecond]
    exact if_pos (by omega)
  | case4 a b c rest ih =>
    have ha := a.toNat_lt
    have hb := b.toNat_lt
    have hc := c.toNat_lt
    have hFirst : UInt8.ofNat (a.toNat / 4 * 4 + (a.toNat % 4 * 16 + b.toNat / 16) / 16) = a :=
      ofNat_eq (by omega)
    have hSecond : UInt8.ofNat ((a.toNat % 4 * 16 + b.toNat / 16) % 16 * 16 +
        (b.toNat % 16 * 4 + c.toNat / 64) / 4) = b := ofNat_eq (by omega)
    have hThird : UInt8.ofNat ((b.toNat % 16 * 4 + c.toNat / 64) % 4 * 64 + c.toNat % 64) = c :=
      ofNat_eq (by omega)
    simp (disch := omega) only [encode, decode?, value?_symbol, Option.bind_eq_bind,
      Option.bind_some, ih, hFirst, hSecond, hThird]

/-! ## Reading, then writing -/

theorem toNat_ofNat {n : Nat} (hLt : n < 256) : (UInt8.ofNat n).toNat = n := by
  rw [UInt8.toNat_ofNat', Nat.mod_eq_of_lt hLt]

theorem encode_of_decode? {symbols bytes : Bytes} (hRead : decode? symbols = some bytes) :
    encode bytes = symbols := by
  induction symbols using decode?.induct generalizing bytes with
  | case1 =>
    obtain rfl := Option.some.inj hRead
    rfl
  | case2 => cases hRead
  | case3 s t =>
    simp only [decode?, Option.bind_eq_bind, Option.bind_eq_some_iff] at hRead
    obtain ⟨m, hs, n, ht, hRead⟩ := hRead
    obtain ⟨hm, rfl⟩ := eq_symbol_of_value? hs
    obtain ⟨hn, rfl⟩ := eq_symbol_of_value? ht
    split at hRead
    · obtain rfl := Option.some.inj hRead
      have hFirst : (m * 4 + n / 16) / 4 = m := by omega
      have hSecond : (m * 4 + n / 16) % 4 * 16 = n := by omega
      simp (disch := omega) only [encode, toNat_ofNat, hFirst, hSecond]
    · cases hRead
  | case4 s t u =>
    simp only [decode?, Option.bind_eq_bind, Option.bind_eq_some_iff] at hRead
    obtain ⟨m, hs, n, ht, k, hu, hRead⟩ := hRead
    obtain ⟨hm, rfl⟩ := eq_symbol_of_value? hs
    obtain ⟨hn, rfl⟩ := eq_symbol_of_value? ht
    obtain ⟨hk, rfl⟩ := eq_symbol_of_value? hu
    split at hRead
    · obtain rfl := Option.some.inj hRead
      have hFirst : (m * 4 + n / 16) / 4 = m := by omega
      have hSecond : (m * 4 + n / 16) % 4 * 16 + (n % 16 * 16 + k / 4) / 16 = n := by omega
      have hThird : (n % 16 * 16 + k / 4) % 16 * 4 = k := by omega
      simp (disch := omega) only [encode, toNat_ofNat, hFirst, hSecond, hThird]
    · cases hRead
  | case5 s t u v rest ih =>
    simp only [decode?, Option.bind_eq_bind, Option.bind_eq_some_iff] at hRead
    obtain ⟨m, hs, n, ht, k, hu, l, hv, found, hRest, hRead⟩ := hRead
    obtain ⟨hm, rfl⟩ := eq_symbol_of_value? hs
    obtain ⟨hn, rfl⟩ := eq_symbol_of_value? ht
    obtain ⟨hk, rfl⟩ := eq_symbol_of_value? hu
    obtain ⟨hl, rfl⟩ := eq_symbol_of_value? hv
    obtain rfl := Option.some.inj hRead
    have hFirst : (m * 4 + n / 16) / 4 = m := by omega
    have hSecond : (m * 4 + n / 16) % 4 * 16 + (n % 16 * 16 + k / 4) / 16 = n := by omega
    have hThird : (n % 16 * 16 + k / 4) % 16 * 4 + (k % 4 * 64 + l) / 64 = k := by omega
    have hFourth : (k % 4 * 64 + l) % 64 = l := by omega
    simp (disch := omega) only [encode, toNat_ofNat, hFirst, hSecond, hThird, hFourth, ih hRest]

theorem decode_eq_ok_iff {symbols bytes : Bytes} :
    decode symbols = .ok bytes ↔ encode bytes = symbols := by
  rw [decode]
  constructor
  · intro hRead
    cases hDecode : decode? symbols with
    | none => simp [hDecode] at hRead
    | some found =>
      rw [hDecode] at hRead
      obtain rfl := Except.ok.inj hRead
      exact encode_of_decode? hDecode
  · rintro rfl
    rw [decode?_encode]

theorem encode_ascii (bytes : Bytes) : ∀ b ∈ encode bytes, b < 128 := by
  induction bytes using encode.induct with
  | case1 => simp [encode]
  | case2 a => simp [encode, symbol_ascii]
  | case3 a b => simp [encode, symbol_ascii]
  | case4 a b c rest ih => simpa [encode, symbol_ascii] using ih

end Tenancy.Base64
