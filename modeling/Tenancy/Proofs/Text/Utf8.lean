import Mathlib.Data.List.Lex
import Tenancy.KeyOrder
import Tenancy.Text.Utf8

/-!
# UTF-8 forms

A text and its UTF-8 form determine each other, and texts are ordered as their UTF-8 forms are byte
by byte.

* `ofUtf8?_eq_some_iff`: reading a form is the inverse of writing it.
* `before_iff_utf8_lt`: the two orders agree.
-/

namespace Tenancy

open KeyOrder (before)

variable {s t : String} {bytes : Bytes}

/-! ## Writing and reading -/

theorem utf8_eq_flatMap (s : String) : utf8 s = s.toList.flatMap String.utf8EncodeChar := by
  change s.toByteArray.data.toList = _
  rw [← String.utf8Encode_toList, List.utf8Encode, List.toList_data_toByteArray]

theorem mk_utf8 (s : String) : (⟨(utf8 s).toArray⟩ : ByteArray) = s.toByteArray := by
  rw [utf8, Array.toArray_toList]
  rfl

theorem utf8_injective : Function.Injective utf8 := by
  intro s t hEq
  rw [← String.toByteArray_inj, ← mk_utf8, ← mk_utf8, hEq]

theorem ofUtf8?_eq_some_iff : ofUtf8? bytes = some s ↔ utf8 s = bytes := by
  rw [ofUtf8?, String.fromUTF8?]
  constructor
  · intro hRead
    split at hRead
    · obtain rfl := Option.some.inj hRead
      exact List.toList_toArray
    · cases hRead
  · rintro rfl
    rw [mk_utf8, dif_pos s.isValidUTF8]
    rfl

/-! ## ASCII texts -/

theorem utf8EncodeChar_ofNat {n : Nat} (hLt : n < 128) :
    String.utf8EncodeChar (Char.ofNat n) = [UInt8.ofNat n] := by
  have hValid : n.isValidChar := .inl (by omega)
  have hVal : (Char.ofNat n).val.toNat = n := by
    rw [Char.ofNat, dif_pos hValid]
    rfl
  rw [String.utf8EncodeChar, hVal, if_pos (by omega)]

/-- The text of ASCII bytes has these bytes as its form. -/
theorem utf8_ofList_ofNat (hAscii : ∀ b ∈ bytes, b < 128) :
    utf8 (String.ofList (bytes.map fun b => Char.ofNat b.toNat)) = bytes := by
  rw [utf8_eq_flatMap, String.toList_ofList]
  induction bytes with
  | nil => rfl
  | cons b rest ih =>
    have hLt : b.toNat < 128 := UInt8.lt_iff_toNat_lt.1 (hAscii b List.mem_cons_self)
    rw [List.map_cons, List.flatMap_cons, utf8EncodeChar_ofNat hLt, UInt8.ofNat_toNat,
      ih fun b hMem => hAscii b (List.mem_cons_of_mem _ hMem)]
    rfl

/-! ## The order -/

/-- Of two numbers the smaller one has a smaller part before its last digit, or the same part and a
smaller last digit. -/
theorem digits_lt {m n : Nat} (base : Nat) (hLt : m < n) :
    m / base < n / base ∨ m / base = n / base ∧ m % base < n % base := by
  rcases Nat.lt_or_eq_of_le (Nat.div_le_div_right (c := base) (Nat.le_of_lt hLt)) with hLess | hSame
  · exact .inl hLess
  · have hm := Nat.div_add_mod m base
    have hn := Nat.div_add_mod n base
    rw [hSame] at hm
    exact .inr ⟨hSame, by omega⟩

/-- The form of the smaller character is smaller at their first difference, so it does not matter
what follows. -/
theorem utf8EncodeChar_append_lt {c d : Char} (hLt : c.toNat < d.toNat) (xs ys : Bytes) :
    String.utf8EncodeChar c ++ xs < String.utf8EncodeChar d ++ ys := by
  have hBound : d.val.toNat < 1114112 := by rcases d.valid with h | h <;> omega
  simp only [Char.toNat] at hLt
  unfold String.utf8EncodeChar
  generalize c.val.toNat = m at *
  generalize d.val.toNat = n at *
  -- The bytes after the first carry the digits to the base 64.
  have hLast := digits_lt 64 hLt
  have hMiddle : m / 64 < n / 64 → m / 4096 < n / 4096 ∨
      m / 4096 = n / 4096 ∧ m / 64 % 64 < n / 64 % 64 := fun hLess => by
    simpa only [Nat.div_div_eq_div_mul] using digits_lt 64 hLess
  have hFirst : m / 4096 < n / 4096 → m / 262144 < n / 262144 ∨
      m / 262144 = n / 262144 ∧ m / 4096 % 64 < n / 4096 % 64 := fun hLess => by
    simpa only [Nat.div_div_eq_div_mul] using digits_lt 64 hLess
  dsimp only
  split_ifs <;>
    simp (disch := omega) only [List.cons_append, List.nil_append, List.cons_lt_cons_iff,
      UInt8.lt_iff_toNat_lt, ← UInt8.toNat_inj, UInt8.toNat_ofNat', Nat.mod_eq_of_lt] <;> omega

theorem flatMap_lt_of_listBefore {cs ds : List Char} (hBefore : before cs ds = true) :
    cs.flatMap String.utf8EncodeChar < ds.flatMap String.utf8EncodeChar := by
  induction cs generalizing ds with
  | nil =>
    cases ds with
    | nil => cases hBefore
    | cons d ds =>
      rw [List.flatMap_nil, List.flatMap_cons]
      cases hChar : String.utf8EncodeChar d with
      | nil => exact absurd hChar String.utf8EncodeChar_ne_nil
      | cons b bs => exact List.nil_lt_cons b _
  | cons c cs ih =>
    cases ds with
    | nil => cases hBefore
    | cons d ds =>
      simp only [List.flatMap_cons]
      rcases KeyOrder.listBefore_cons.1 hBefore with hHead | ⟨rfl, hTail⟩
      · exact utf8EncodeChar_append_lt (of_decide_eq_true hHead) _ _
      · exact List.append_left_lt (ih hTail)

theorem before_iff_utf8_lt : before s t = true ↔ utf8 s < utf8 t := by
  have hOf : ∀ {s t : String}, before s t = true → utf8 s < utf8 t := fun {s t} hBefore => by
    rw [utf8_eq_flatMap, utf8_eq_flatMap]
    exact flatMap_lt_of_listBefore hBefore
  refine ⟨hOf, fun hLt => ?_⟩
  by_contra hNot
  cases hBack : before t s with
  | true => exact absurd (hOf hBack) (List.lt_asymm hLt)
  | false =>
    obtain rfl := KeyOrder.eq_of_not_before s t (Bool.eq_false_iff.2 hNot) hBack
    exact List.lt_irrefl _ hLt

end Tenancy
