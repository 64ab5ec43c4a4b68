import Tenancy.Proofs.Base64
import Tenancy.Proofs.Text.Utf8
import Tenancy.Store.Token

/-!
# Page tokens and names

A token is accepted exactly if it is the token of a name, and then it stands for that name only.
-/

namespace Tenancy.PageToken

variable {token name : String}

theorem utf8_encode (name : String) : utf8 (encode name) = Base64.encode (utf8 name) :=
  utf8_ofList_ofNat (Base64.encode_ascii _)

theorem decode_eq_ok_iff : decode token = .ok name ↔ encode name = token := by
  rw [← utf8_injective.eq_iff, utf8_encode, ← Base64.decode_eq_ok_iff, decode]
  cases Base64.decode (utf8 token) with
  | error fault => simp
  | ok bytes =>
    cases hRead : ofUtf8? bytes with
    | none =>
      have hOther : utf8 name ≠ bytes := fun hEq => by
        rw [ofUtf8?_eq_some_iff.2 hEq] at hRead
        cases hRead
      simp [hRead, hOther.symm]
    | some found =>
      obtain rfl := ofUtf8?_eq_some_iff.1 hRead
      simp [hRead, utf8_injective.eq_iff]

@[simp]
theorem decode_encode (name : String) : decode (encode name) = .ok name := decode_eq_ok_iff.2 rfl

/-- A text that is the token of no name is refused. -/
theorem decode_eq_error (hOther : ∀ name, encode name ≠ token) :
    ∃ fault, decode token = .error fault := by
  cases hRead : decode token with
  | error fault => exact ⟨fault, rfl⟩
  | ok name => exact absurd (decode_eq_ok_iff.1 hRead) (hOther name)

end Tenancy.PageToken
