import Tenancy.Proofs.Access.Coverage
import Tenancy.Proofs.Json.Union
import Tenancy.Proofs.Time.Text
import Tenancy.Proofs.Uid
import Tenancy.Wire.Access
import Tenancy.Wire.Billing
import Tenancy.Wire.Feed
import Tenancy.Wire.Organization
import Tenancy.Wire.Store

/-!
# Faithful wire forms

The wire form of each type is faithful, field by field: names differ, what is left out is what a
missing field stands for, and every part is faithful.

`Fits` says of a value that its numbers have the width that they have on the wire and that its times
are in the calendar.  Texts may be any.
-/

namespace Tenancy

open Json Json.Format

/-! ## Scalars -/

section Scalars

variable {levels : Nat}

def FitsSigned (n : Int) : Prop := -0x8000000000000000 ≤ n ∧ n ≤ 0x7fffffffffffffff

def FitsWord (n : Nat) : Prop := n ≤ Numeral.maxWord

theorem size_faithful : Format.size.Faithful levels FitsWord :=
  natural_faithful "usize" (by decide)

theorem word_faithful : word.Faithful levels FitsWord := natural_faithful "u64" (by decide)

theorem short_faithful : short.Faithful levels fun n => n ≤ 0xffff :=
  natural_faithful "u16" (by decide)

theorem signed_faithful : signed.Faithful levels FitsSigned :=
  integer_faithful "i64" (by decide) (by decide)

theorem Time.format_faithful : Time.format.Faithful levels Time.IsValid := by
  refine spelled_faithful (fun t hValid => ?_) fun s t hRead => ?_
  · rw [Time.read_wireText hValid]
    rfl
  · cases hTime : Time.read s with
    | ok t' =>
      rw [hTime] at hRead
      obtain rfl := Except.ok.inj hRead
      exact Time.isValid_read hTime
    | error fault =>
      rw [hTime] at hRead
      cases hRead

theorem Uid.format_faithful : Uid.format.Faithful levels fun _ => True := by
  refine spelled_faithful (fun u _ => ?_) fun _ _ _ => trivial
  rw [Uid.read_text]
  rfl

end Scalars

/-! ## Access control -/

section Access

variable {levels : Nat}

theorem Verb.format_faithful : Verb.format.Faithful levels fun _ => True :=
  choice_faithful fun v => by cases v <;> rfl

theorem Collection.format_faithful : Collection.format.Faithful levels fun _ => True :=
  choice_faithful fun c => by cases c <;> rfl

/-- The name of a permission is left out if it has none, without a default of its own. -/
theorem Permission.nameField_faithful :
    Field.Faithful ⟨"resource_name", Format.text.optional, none, Option.isNone⟩ levels
      fun o => ∀ s ∈ o, True where
  format := text_faithful.optional fun _ _ => nofun
  valid_default := nofun
  missing_of_hidden o _ hHidden := by
    obtain rfl := Option.isNone_iff_eq_none.1 hHidden
    rfl

theorem Permission.format_faithful : Permission.format.Faithful 1 fun _ => True :=
  Faithful.imap
    (record_faithful
      (.cons (Field.required_faithful Collection.format_faithful)
        (.cons (Field.required_faithful Verb.format_faithful)
          (.cons Permission.nameField_faithful .nil))) (by decide))
    (fun _ => rfl) (fun _ _ => ⟨trivial, trivial, fun _ _ => trivial, trivial⟩) fun _ _ => trivial

/-- The members make up the set in whatever order they come. -/
theorem PermissionSet.Order.ofList_arrange (order : PermissionSet.Order) (s : PermissionSet) :
    PermissionSet.ofList (order.arrange s) = s :=
  PermissionSet.ofList_eq fun _ => (order.perm s).mem_iff

theorem PermissionSet.listing_faithful : PermissionSet.listing.Faithful 3 fun _ => True :=
  Faithful.imap
    (record_faithful
      (.cons (Field.required_faithful Permission.format_faithful.list) .nil) (by decide))
    (fun _ => rfl) (fun _ _ => ⟨fun _ _ => trivial, trivial⟩) fun _ _ => trivial

theorem PermissionSet.format_faithful (order : PermissionSet.Order) :
    (PermissionSet.format order).Faithful 3 fun _ => True :=
  PermissionSet.listing_faithful.imap order.ofList_arrange (fun _ _ => trivial)
    fun _ _ => trivial

def Role.Fits (r : Role) : Prop := r.createdAt.IsValid

theorem Role.format_faithful (order : PermissionSet.Order) :
    (Role.format order).Faithful 4 Role.Fits :=
  Faithful.imap
    (record_faithful
      (.cons (Field.required_faithful text_faithful)
        (.cons (Field.required_faithful PermissionSet.listing_faithful)
          (.cons (Field.required_faithful Time.format_faithful) .nil))) (by decide))
    (fun r => congrArg (Role.mk r.name · r.createdAt) (order.ofList_arrange r.permissions))
    (fun _ h => ⟨trivial, trivial, h, trivial⟩) fun _ h => h.2.2.1

def RoleBinding.Fits (b : RoleBinding) : Prop := b.createdAt.IsValid

theorem RoleBinding.format_faithful : RoleBinding.format.Faithful 1 RoleBinding.Fits :=
  Faithful.imap
    (record_faithful
      (.cons (Field.required_faithful text_faithful)
        (.cons (Field.required_faithful text_faithful)
          (.cons (Field.required_faithful text_faithful)
            (.cons (Field.required_faithful Time.format_faithful) .nil)))) (by decide))
    (fun _ => rfl) (fun _ h => ⟨trivial, trivial, trivial, h, trivial⟩) fun _ h => h.2.2.2.1

theorem Actor.format_faithful : Actor.format.Faithful 2 fun _ => True :=
  Faithful.imap
    (record_faithful
      (.cons (Field.required_faithful text_faithful)
        (.cons (Field.defaulted_faithful text_faithful.list fun _ _ => trivial) .nil)) (by decide))
    (fun _ => rfl) (fun _ _ => ⟨trivial, fun _ _ => trivial, trivial⟩) fun _ _ => trivial

theorem Coordinates.format_faithful : Coordinates.format.Faithful 1 fun _ => True :=
  Faithful.imap
    (record_faithful
      (.cons (Field.required_faithful Collection.format_faithful)
        (.cons (Field.required_faithful (text_faithful.optional fun _ _ => nofun)) .nil))
      (by decide))
    (fun _ => rfl) (fun _ _ => ⟨trivial, fun _ _ => trivial, trivial⟩) fun _ _ => trivial

theorem AccessRequest.format_faithful : AccessRequest.format.Faithful 3 fun _ => True :=
  Faithful.imap
    (record_faithful
      (.cons (Field.required_faithful Actor.format_faithful)
        (.cons (Field.required_faithful Verb.format_faithful)
          (.cons (Field.required_faithful (Coordinates.format_faithful.mono (by decide))) .nil)))
      (by decide))
    (fun _ => rfl) (fun _ _ => ⟨trivial, trivial, trivial, trivial⟩) fun _ _ => trivial

theorem Decision.format_faithful : Decision.format.Faithful 1 fun _ => True := by
  refine union_faithful (fun v hMem => ?_) fun d _ => ?_
  · rcases List.mem_pair.1 hMem with rfl | rfl
    · exact .bare trivial
    · have hReason : Format.text.Faithful 0 fun _ => True := text_faithful
      exact .carrying hReason fun _ _ => trivial
  · cases d with
    | allow => exact ⟨_, rfl, .bare⟩
    | deny reason => exact ⟨_, rfl, .carrying (.carrying text_faithful trivial)⟩

end Access

/-! ## Billing -/

section Billing

variable {levels : Nat}

theorem RecordKind.format_faithful : RecordKind.format.Faithful levels fun _ => True :=
  choice_faithful fun k => by cases k <;> rfl

structure PartnerRecord.Fits (r : PartnerRecord) : Prop where
  id : FitsSigned r.id
  parentId : ∀ n ∈ r.parentId, FitsSigned n
  createdAt : r.createdAt.IsValid

theorem PartnerRecord.format_faithful : PartnerRecord.format.Faithful 1 PartnerRecord.Fits :=
  Faithful.imap
    (record_faithful
      (.cons (Field.required_faithful signed_faithful)
        (.cons (Field.required_faithful RecordKind.format_faithful)
          (.cons (Field.required_faithful text_faithful)
            (.cons (Field.omittable_faithful text_faithful fun _ _ => nofun)
              (.cons (Field.required_faithful text_faithful)
                (.cons (Field.omittable_faithful signed_faithful fun _ _ => nofun)
                  (.cons (Field.defaulted_faithful text_faithful trivial)
                    (.cons (Field.required_faithful Time.format_faithful) .nil)))))))) (by decide))
    (fun _ => rfl)
    (fun _ h => ⟨h.id, trivial, trivial, fun _ _ => trivial, trivial, h.parentId, trivial,
      h.createdAt, trivial⟩)
    fun _ ⟨hId, _, _, _, _, hParent, _, hCreated, _⟩ => ⟨hId, hParent, hCreated⟩

structure ScavengerConfig.Fits (c : ScavengerConfig) : Prop where
  gracePeriodSecs : FitsWord c.gracePeriodSecs
  intervalSecs : FitsWord c.intervalSecs

theorem ScavengerConfig.format_faithful :
    ScavengerConfig.format.Faithful 1 ScavengerConfig.Fits :=
  Faithful.imap
    (record_faithful
      (.cons (Field.required_faithful word_faithful)
        (.cons (Field.required_faithful word_faithful)
          (.cons (Field.required_faithful bool_faithful) .nil))) (by decide))
    (fun _ => rfl) (fun _ h => ⟨h.gracePeriodSecs, h.intervalSecs, trivial, trivial⟩)
    fun _ h => ⟨h.1, h.2.1⟩

structure SweepReport.Fits (r : SweepReport) : Prop where
  examined : FitsWord r.examined
  deleted : FitsWord r.deleted
  retained : FitsWord r.retained

theorem SweepReport.format_faithful : SweepReport.format.Faithful 1 SweepReport.Fits :=
  Faithful.imap
    (record_faithful
      (.cons (Field.required_faithful size_faithful)
        (.cons (Field.required_faithful size_faithful)
          (.cons (Field.required_faithful size_faithful) .nil))) (by decide))
    (fun _ => rfl) (fun _ h => ⟨h.examined, h.deleted, h.retained, trivial⟩)
    fun _ h => ⟨h.1, h.2.1, h.2.2.1⟩

end Billing

/-! ## Watch events -/

section Feed

variable {levels : Nat} {α : Type} {object : Format α} {valid : α → Prop}

def Status.Fits (s : Status) : Prop := s.code ≤ 0xffff

theorem Status.format_faithful : Status.format.Faithful 1 Status.Fits :=
  Faithful.imap
    (record_faithful
      (.cons (Field.required_faithful short_faithful)
        (.cons (Field.required_faithful text_faithful)
          (.cons (Field.required_faithful text_faithful) .nil))) (by decide))
    (fun _ => rfl) (fun _ h => ⟨h, trivial, trivial, trivial⟩) fun _ h => h.1

theorem bookmarkFormat_faithful : bookmarkFormat.Faithful 1 fun _ => True :=
  Faithful.imap
    (objectOnly_faithful (.cons (Field.required_faithful text_faithful) .nil) (by decide))
    (fun _ => rfl) (fun _ _ => ⟨trivial, trivial⟩) fun _ _ => trivial

/-- What the event is about has a form on the wire. -/
def Event.Fits (valid : α → Prop) : Event α → Prop
  | .added x | .modified x | .deleted x => valid x
  | .error status => status.Fits
  | .bookmark _ => True

theorem Event.format_faithful (h : object.Faithful levels valid) :
    (Event.format object).Faithful (levels + 2) (Event.Fits valid) := by
  have hObject := h.mono (Nat.le_succ levels)
  have hStatus := Status.format_faithful.mono (Nat.le_add_left 1 levels)
  have hBookmark := bookmarkFormat_faithful.mono (Nat.le_add_left 1 levels)
  refine adjacent_faithful ?_ (by decide) ?_ ?_
  · change ["ADDED", "MODIFIED", "DELETED", "ERROR", "BOOKMARK"].Nodup
    decide
  · intro v hMem
    simp only [List.mem_cons, List.not_mem_nil, or_false] at hMem
    rcases hMem with rfl | rfl | rfl | rfl | rfl
    · exact .carrying hObject fun _ => id
    · exact .carrying hObject fun _ => id
    · exact .carrying hObject fun _ => id
    · exact .carrying hStatus fun _ => id
    · exact .carrying hBookmark fun _ => id
  · intro e hFits
    cases e with
    | added x => exact ⟨(0 : Fin 5), _, rfl, .carrying hObject hFits⟩
    | modified x => exact ⟨(1 : Fin 5), _, rfl, .carrying hObject hFits⟩
    | deleted x => exact ⟨(2 : Fin 5), _, rfl, .carrying hObject hFits⟩
    | error status => exact ⟨(3 : Fin 5), _, rfl, .carrying hStatus hFits⟩
    | bookmark version => exact ⟨(4 : Fin 5), _, rfl, .carrying hBookmark hFits⟩

end Feed

/-! ## Resources -/

section Store

variable {levels : Nat} {α : Type} {payload : Format α} {valid : α → Prop}

def ObjectMeta.Fits (o : ObjectMeta) : Prop := ∀ t ∈ o.creationTime, t.IsValid

theorem ObjectMeta.format_faithful : ObjectMeta.format.Faithful 1 ObjectMeta.Fits :=
  Faithful.imap
    (record_faithful
      (.cons (Field.required_faithful text_faithful)
        (.cons (Field.omittable_faithful text_faithful fun _ _ => nofun)
          (.cons (Field.omittable_faithful Uid.format_faithful fun _ _ => nofun)
            (.cons (Field.omittable_faithful Time.format_faithful fun _ _ => nofun)
              (.cons (Field.omittable_faithful text_faithful fun _ _ => nofun) .nil)))))
      (by decide))
    (fun _ => rfl)
    (fun _ h => ⟨trivial, fun _ _ => trivial, fun _ _ => trivial, h, fun _ _ => trivial, trivial⟩)
    fun _ h => h.2.2.2.1

/-- The metadata and the payload have forms on the wire. -/
structure Resource.Fits (valid : α → Prop) (r : Resource α) : Prop where
  metadata : r.metadata.Fits
  payload : valid r.payload

theorem Resource.format_faithful (h : payload.Faithful levels valid) :
    (Resource.format payload).Faithful (levels + 2) (Resource.Fits valid) :=
  Faithful.imap
    (record_faithful
      (.cons (Field.required_faithful
          (ObjectMeta.format_faithful.mono (Nat.le_add_left 1 levels)))
        (.cons (Field.required_faithful (h.mono (Nat.le_succ levels))) .nil))
      (by simp [Row.keys, Field.required]))
    (fun _ => rfl) (fun _ h => ⟨h.metadata, h.payload, trivial⟩) fun _ h => ⟨h.1, h.2.1⟩

def ListOptions.Fits (o : ListOptions) : Prop := ∀ n ∈ o.limit, FitsWord n

theorem ListOptions.format_faithful : ListOptions.format.Faithful 1 ListOptions.Fits :=
  Faithful.imap
    (record_faithful
      (.cons (Field.omittable_faithful size_faithful fun _ _ => nofun)
        (.cons (Field.omittable_faithful text_faithful fun _ _ => nofun)
          (.cons (Field.defaulted_faithful bool_faithful trivial) .nil))) (by decide))
    (fun _ => rfl) (fun _ h => ⟨h, fun _ _ => trivial, trivial, trivial⟩) fun _ h => h.1

def Page.Fits (valid : α → Prop) (p : Page (Resource α)) : Prop :=
  ∀ r ∈ p.items, r.Fits valid

theorem Page.format_faithful (h : payload.Faithful levels valid) :
    (Page.format payload).Faithful (levels + 4) (Page.Fits valid) :=
  Faithful.imap
    (record_faithful
      (.cons (Field.required_faithful (Resource.format_faithful h).list)
        (.cons (Field.omittable_faithful text_faithful fun _ _ => nofun)
          (.cons (Field.required_faithful text_faithful) .nil)))
      (by simp [Row.keys, Field.required, Field.omittable]))
    (fun _ => rfl) (fun _ h => ⟨h, fun _ _ => trivial, trivial, trivial⟩) fun _ h => h.1

structure StoreConfig.Fits (c : StoreConfig) : Prop where
  watchBufferSize : FitsWord c.watchBufferSize
  maxPageSize : FitsWord c.maxPageSize
  changeFeedCapacity : FitsWord c.changeFeedCapacity

theorem StoreConfig.format_faithful : StoreConfig.format.Faithful 1 StoreConfig.Fits :=
  Faithful.imap
    (record_faithful
      (.cons (Field.required_faithful size_faithful)
        (.cons (Field.required_faithful size_faithful)
          (.cons (Field.required_faithful size_faithful) .nil))) (by decide))
    (fun _ => rfl)
    (fun _ h => ⟨h.watchBufferSize, h.maxPageSize, h.changeFeedCapacity, trivial⟩)
    fun _ h => ⟨h.1, h.2.1, h.2.2.1⟩

end Store

/-! ## Organizations -/

section Organization

variable {levels : Nat}

theorem OrganizationRole.format_faithful :
    OrganizationRole.format.Faithful levels fun _ => True :=
  choice_faithful fun r => by cases r <;> rfl

theorem InvitationStatus.format_faithful :
    InvitationStatus.format.Faithful levels fun _ => True :=
  choice_faithful fun s => by cases s <;> rfl

theorem Plan.format_faithful : Plan.format.Faithful levels fun _ => True :=
  choice_faithful fun p => by cases p <;> rfl

def Membership.Fits (s : Membership) : Prop := s.joinedAt.IsValid

theorem Membership.format_faithful : Membership.format.Faithful 1 Membership.Fits :=
  Faithful.imap
    (record_faithful
      (.cons (Field.required_faithful text_faithful)
        (.cons (Field.required_faithful text_faithful)
          (.cons (Field.required_faithful OrganizationRole.format_faithful)
            (.cons (Field.required_faithful Time.format_faithful)
              (.cons (Field.omittable_faithful text_faithful fun _ _ => nofun)
                (.cons (Field.required_faithful bool_faithful)
                  (.cons (Field.omittable_faithful text_faithful fun _ _ => nofun) .nil)))))))
      (by decide))
    (fun _ => rfl)
    (fun _ h => ⟨trivial, trivial, trivial, h, fun _ _ => trivial, trivial, fun _ _ => trivial,
      trivial⟩)
    fun _ h => h.2.2.2.1

def Invitation.Fits (i : Invitation) : Prop := i.expiresAt.IsValid

theorem Invitation.format_faithful : Invitation.format.Faithful 1 Invitation.Fits :=
  Faithful.imap
    (record_faithful
      (.cons (Field.required_faithful text_faithful)
        (.cons (Field.required_faithful text_faithful)
          (.cons (Field.required_faithful OrganizationRole.format_faithful)
            (.cons (Field.required_faithful text_faithful)
              (.cons (Field.required_faithful InvitationStatus.format_faithful)
                (.cons (Field.required_faithful Time.format_faithful) .nil)))))) (by decide))
    (fun _ => rfl) (fun _ h => ⟨trivial, trivial, trivial, trivial, trivial, h, trivial⟩)
    fun _ h => h.2.2.2.2.2.1

structure RecordLink.Fits (l : RecordLink) : Prop where
  companyId : FitsSigned l.companyId
  invoiceId : FitsSigned l.invoiceId

theorem RecordLink.format_faithful : RecordLink.format.Faithful 1 RecordLink.Fits :=
  Faithful.imap
    (record_faithful
      (.cons (Field.required_faithful signed_faithful)
        (.cons (Field.required_faithful signed_faithful) .nil)) (by decide))
    (fun _ => rfl) (fun _ h => ⟨h.companyId, h.invoiceId, trivial⟩) fun _ h => ⟨h.1, h.2.1⟩

def BillingAccount.Fits (a : BillingAccount) : Prop := ∀ l ∈ a.link, l.Fits

theorem BillingAccount.format_faithful : BillingAccount.format.Faithful 2 BillingAccount.Fits :=
  Faithful.imap
    (record_faithful
      (.cons (Field.required_faithful text_faithful)
        (.cons (Field.required_faithful text_faithful)
          (.cons (Field.required_faithful text_faithful)
            (.cons (Field.required_faithful text_faithful)
              (.cons (Field.defaulted_faithful Plan.format_faithful trivial)
                (.cons (Field.omittable_faithful RecordLink.format_faithful fun _ _ => nofun)
                  .nil)))))) (by decide))
    (fun _ => rfl) (fun _ h => ⟨trivial, trivial, trivial, trivial, trivial, h, trivial⟩)
    fun _ h => h.2.2.2.2.2.1

end Organization

end Tenancy
