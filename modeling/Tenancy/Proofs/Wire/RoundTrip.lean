import Tenancy.Proofs.Wire.Formats
import Tenancy.Store.Codec

/-!
# Decoding undoes encoding

What a store keeps and what goes over the wire is JSON, written and read by the formats of the
types.  Nothing is lost on the way, for texts of any characters.

* `Codec.Interchangeable`: decoding undoes encoding, encoding is injective, and a value that was
  decoded from any text is encoded to a text that is decoded to the same value, whichever of some
  codecs does it.  Those of sets differ in the order of the members.
* `Codec.Undoes`: the same of one codec.
* `wire_forms_undo_encoding`: this holds of the wire forms.
-/

namespace Tenancy

open Json

variable {ι α : Type}

/-- Every codec decodes what any of them has encoded, for the values that `fits` holds of, which are
all that are decoded. -/
structure Codec.Interchangeable (codec : ι → Codec α) (fits : α → Prop) : Prop where
  decode_encode : ∀ i j x, fits x →
    ∃ bytes, (codec i).encode x = .ok bytes ∧ (codec j).decode bytes = .ok x
  encode_injective : ∀ i j x y, fits x → fits y → (codec i).encode x = (codec j).encode y → x = y
  encode_decoded : ∀ i j k bytes x, (codec i).decode bytes = .ok x →
    fits x ∧ ∃ other, (codec j).encode x = .ok other ∧ (codec k).decode other = .ok x

def Codec.Undoes (codec : Codec α) (fits : α → Prop) : Prop :=
  Codec.Interchangeable (fun _ : Unit => codec) fits

/-- Formats that read alike may write values differently, as long as each reads what it writes. -/
theorem Json.Format.Faithful.interchangeable {format : ι → Format α} {levels : Nat}
    {fits : α → Prop} (h : ∀ i, (format i).Faithful levels fits)
    (hAlike : ∀ i j, (format i).decode = (format j).decode) (hLevels : levels < nestingLimit) :
    Codec.Interchangeable (fun i => Codec.json (format i)) fits := by
  have hRead : ∀ i j x, fits x → (Codec.json (format j)).decode ((format i).encode x) = .ok x := by
    intro i j x hFits
    change ((format j).decode ((format i).encode x)).mapError _ = _
    rw [hAlike j i, (h i).decode_encode hLevels hFits]
    rfl
  refine ⟨fun i j x hFits => ⟨_, rfl, hRead i j x hFits⟩, fun i j x y hx hy hSame => ?_,
    fun i j k bytes x hText => ?_⟩
  · have hBytes : (format i).encode x = (format j).encode y := Except.ok.inj hSame
    have hDecoded := hRead i i x hx
    rw [hBytes, hRead j i y hy] at hDecoded
    exact (Except.ok.inj hDecoded).symm
  · change ((format i).decode bytes).mapError _ = _ at hText
    cases hValue : (format i).decode bytes with
    | error fault =>
      rw [hValue] at hText
      cases hText
    | ok y =>
      rw [hValue] at hText
      obtain rfl := Except.ok.inj hText
      have hFits := (h i).valid_decode hValue
      exact ⟨hFits, _, rfl, hRead j k y hFits⟩

theorem Json.Format.Faithful.undoes {format : Format α} {levels : Nat} {fits : α → Prop}
    (h : format.Faithful levels fits) (hLevels : levels < nestingLimit) :
    (Codec.json format).Undoes fits :=
  interchangeable (fun _ => h) (fun _ _ => rfl) hLevels

/-- Decoding undoes encoding for the wire and storage forms of all types: numbers of the width that
they have there, times of the calendar, and any texts.  The members of a set, also of one that a
role has, may be written in any order, and another order may be in use where the set is read. -/
theorem wire_forms_undo_encoding :
    (Codec.json Permission.format).Undoes (fun _ => True) ∧
    Codec.Interchangeable (fun order => Codec.json (PermissionSet.format order)) (fun _ => True) ∧
    Codec.Interchangeable (fun order => Codec.json (Role.format order)) Role.Fits ∧
    (Codec.json RoleBinding.format).Undoes RoleBinding.Fits ∧
    (Codec.json Actor.format).Undoes (fun _ => True) ∧
    (Codec.json Coordinates.format).Undoes (fun _ => True) ∧
    (Codec.json AccessRequest.format).Undoes (fun _ => True) ∧
    (Codec.json Decision.format).Undoes (fun _ => True) ∧
    (Codec.json Status.format).Undoes Status.Fits ∧
    (Codec.json (Event.format .text)).Undoes (Event.Fits fun _ => True) ∧
    (Codec.json ObjectMeta.format).Undoes ObjectMeta.Fits ∧
    (Codec.json (Resource.format .text)).Undoes (Resource.Fits fun _ => True) ∧
    (Codec.json (Page.format .text)).Undoes (Page.Fits fun _ => True) ∧
    (Codec.json ListOptions.format).Undoes ListOptions.Fits ∧
    (Codec.json StoreConfig.format).Undoes StoreConfig.Fits ∧
    (Codec.json BillingAccount.format).Undoes BillingAccount.Fits ∧
    (Codec.json Invitation.format).Undoes Invitation.Fits ∧
    (Codec.json Membership.format).Undoes Membership.Fits ∧
    (Codec.json PartnerRecord.format).Undoes PartnerRecord.Fits ∧
    (Codec.json ScavengerConfig.format).Undoes ScavengerConfig.Fits ∧
    (Codec.json SweepReport.format).Undoes SweepReport.Fits := by
  have hText : Format.text.Faithful 0 fun _ => True := Format.text_faithful
  exact ⟨Permission.format_faithful.undoes (by decide),
    Format.Faithful.interchangeable PermissionSet.format_faithful (fun _ _ => rfl) (by decide),
    Format.Faithful.interchangeable Role.format_faithful (fun _ _ => rfl) (by decide),
    RoleBinding.format_faithful.undoes (by decide),
    Actor.format_faithful.undoes (by decide),
    Coordinates.format_faithful.undoes (by decide),
    AccessRequest.format_faithful.undoes (by decide),
    Decision.format_faithful.undoes (by decide),
    Status.format_faithful.undoes (by decide),
    (Event.format_faithful hText).undoes (by decide),
    ObjectMeta.format_faithful.undoes (by decide),
    (Resource.format_faithful hText).undoes (by decide),
    (Page.format_faithful hText).undoes (by decide),
    ListOptions.format_faithful.undoes (by decide),
    StoreConfig.format_faithful.undoes (by decide),
    BillingAccount.format_faithful.undoes (by decide),
    Invitation.format_faithful.undoes (by decide),
    Membership.format_faithful.undoes (by decide),
    PartnerRecord.format_faithful.undoes (by decide),
    ScavengerConfig.format_faithful.undoes (by decide),
    SweepReport.format_faithful.undoes (by decide)⟩

def PermissionSet.Order.descending : PermissionSet.Order :=
  ⟨fun s => s.toList.reverse, fun s => s.toList.reverse_perm⟩

/-- A membership with quotes, controls, accents and a leap second; and a role whose permissions are
written in one order and read in the other. -/
theorem wire_forms_undo_encoding_unusual :
    let membership : Membership :=
      ⟨"\"a\\b\"", "\n\t\x01\x7f é 日本 😀", .owner, ⟨1483228799, 1500000000⟩, some "", true, none⟩
    let role : Role :=
      ⟨"é", .ofList [.global .organization .list, .named .role .all "a\"b"], ⟨0, 0⟩⟩
    let codec := fun order => Codec.json (Role.format order)
    membership.Fits ∧ role.Fits ∧
    (∃ bytes, (Codec.json Membership.format).encode membership = .ok bytes ∧
      (Codec.json Membership.format).decode bytes = .ok membership) ∧
    (codec .descending).encode role ≠ (codec .ascending).encode role ∧
    ∃ bytes, (codec .descending).encode role = .ok bytes ∧
      (codec .ascending).decode bytes = .ok role := by
  intro membership role codec
  have hMembershipFits : membership.Fits := by
    change Time.IsValid _
    decide
  have hRoleFits : role.Fits := by
    change Time.IsValid _
    decide
  obtain ⟨-, -, hRole, -, -, -, -, -, -, -, -, -, -, -, -, -, -, hMembership, -⟩ :=
    wire_forms_undo_encoding
  exact ⟨hMembershipFits, hRoleFits, hMembership.decode_encode () () membership hMembershipFits,
    by decide +kernel, hRole.decode_encode .descending .ascending role hRoleFits⟩

end Tenancy
