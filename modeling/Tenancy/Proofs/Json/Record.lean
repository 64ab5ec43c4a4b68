import Tenancy.Proofs.Json.Format

/-!
# Faithful records

A record is faithful if its fields are, their keys differ, and a value that is not written is what
a missing field stands for.

* `Row.Sits`: the fields of a record from some field on, when those before it are settled.  Reading
  the written members in order moves this place to the end (`Row.readMembers_toMembers`).
* `Format.record_faithful`, `Format.objectOnly_faithful`.
-/

namespace Tenancy.Json

/-! ## Written members -/

/-- The members of an object up to its closing brace, the first of them without a comma. -/
def membersText : (first : Bool) → List (String × Json) → Bytes → Bytes
  | true, member :: members, rest =>
    writeString member.1 (58 :: writeOnto member.2 (writeMembers members rest))
  | _, members, rest => writeMembers members rest

theorem writeOnto_object (members : List (String × Json)) (rest : Bytes) :
    writeOnto (.object members) rest = 123 :: membersText true members (125 :: rest) := by
  cases members <;> rfl

theorem length_le_membersText (first : Bool) (members : List (String × Json)) (rest : Bytes) :
    members.length + rest.length ≤ (membersText first members rest).length + 1 := by
  cases first with
  | false => exact Nat.le_succ_of_le (length_le_writeMembers rest members)
  | true =>
    cases members with
    | nil => exact Nat.le_succ_of_le (length_le_writeMembers rest [])
    | cons member members =>
      have hAll := length_le_writeMembers rest (member :: members)
      simp only [writeMembers, membersText, List.length_cons] at hAll ⊢
      omega

theorem isDelimited_writeMembers (members : List (String × Json)) (rest : Bytes) :
    IsDelimited (writeMembers members (125 :: rest)) := by
  cases members with
  | nil => exact isDelimited_cons (.inr (.inr rfl))
  | cons member members => exact isDelimited_cons (.inl rfl)

theorem nextKey_membersText (first : Bool) (member : String × Json)
    (members : List (String × Json)) (rest : Bytes) :
    nextKey first (membersText first (member :: members) rest) =
      .ok (some (member.1, 58 :: writeOnto member.2 (writeMembers members rest))) := by
  have hKey := readString_writeEscaped member.1
    (58 :: writeOnto member.2 (writeMembers members rest))
  cases first with
  | true =>
    change (readString (writeEscaped (utf8 member.1) _)).map some = _
    rw [hKey, map_ok]
  | false =>
    change (readString (writeEscaped (utf8 member.1) _)).map some = _
    rw [hKey, map_ok]

namespace Format

/-! ## Rows -/

variable {α β π β₀ π₀ : Type}

def Field.missing? (field : Field α) : Option α := field.default?.or field.format.absent

structure Field.Faithful (field : Field α) (levels : Nat) (valid : α → Prop) : Prop where
  format : field.format.Faithful levels valid
  valid_default : ∀ x, field.default? = some x → valid x
  missing_of_hidden : ∀ x, valid x → field.hidden x = true → field.missing? = some x

namespace Field

variable {key : String} {format : Format α} {levels : Nat} {valid : α → Prop}

theorem Faithful.valid_missing {field : Field α} (h : field.Faithful levels valid) {x : α}
    (hMissing : field.missing? = some x) : valid x := by
  rcases Option.or_eq_some_iff.1 hMissing with hDefault | ⟨-, hAbsent⟩
  · exact h.valid_default x hDefault
  · exact h.format.valid_absent x hAbsent

theorem required_faithful (h : format.Faithful levels valid) :
    (required key format).Faithful levels valid where
  format := h
  valid_default _ hDefault := by cases hDefault
  missing_of_hidden _ _ hHidden := by cases hHidden

theorem defaulted_faithful (h : format.Faithful levels valid) {value : α} (hValue : valid value) :
    (defaulted key format value).Faithful levels valid where
  format := h
  valid_default _ hDefault := Option.some.inj hDefault ▸ hValue
  missing_of_hidden _ _ hHidden := by cases hHidden

theorem omittable_faithful (h : format.Faithful levels valid)
    (hSome : ∀ x, valid x → format.toJson x ≠ .null) :
    (omittable key format).Faithful levels fun o => ∀ x ∈ o, valid x where
  format := h.optional hSome
  valid_default o hDefault x hMem := by
    obtain rfl := Option.some.inj hDefault
    cases hMem
  missing_of_hidden o _ hHidden := by
    obtain rfl := Option.isNone_iff_eq_none.1 hHidden
    rfl

end Field

namespace Row

def keys : {β π : Type} → Row β π → List String
  | _, _, .nil => []
  | _, _, .cons field rest => field.key :: rest.keys

/-- All fields are faithful: what is valid in a row, and in a row of which some fields are still to
come. -/
inductive Faithful (levels : Nat) :
    {β π : Type} → Row β π → (β → Prop) → (π → Prop) → Prop
  | nil : Faithful levels .nil (fun _ => True) (fun _ => True)
  | cons {α β π : Type} {field : Field α} {rest : Row β π} {validField : α → Prop}
      {valid : β → Prop} {validSlots : π → Prop} (hField : field.Faithful levels validField)
      (hRest : rest.Faithful levels valid validSlots) :
      Faithful levels (.cons field rest) (fun xs => validField xs.1 ∧ valid xs.2)
        (fun slots => (∀ x ∈ slots.1, validField x) ∧ validSlots slots.2)

/-- A field has what has come for it, or else what its absence stands for. -/
theorem complete_cons (field : Field α) (rest : Row β π) (slot : Option α) (slots : π) :
    (cons field rest).complete (slot, slots) =
      match slot.or field.missing? with
      | some x => (rest.complete slots).map fun xs => (x, xs)
      | none => .error (.missingField field.key) := by
  have hFound : ∀ x : α, (do .ok (x, ← rest.complete slots) : Except Fault (α × β)) =
      (rest.complete slots).map fun xs => (x, xs) := by
    intro x
    cases rest.complete slots <;> rfl
  obtain ⟨key, ⟨read, ofTree, toJson, absent⟩, default?, hidden⟩ := field
  cases slot with
  | some x => exact hFound x
  | none =>
    cases default? with
    | some x => exact hFound x
    | none =>
      cases absent with
      | some x => exact hFound x
      | none => rfl

/-! ## Reading what has been written -/

/-- The fields of `row` are those of `whole` from some field on; `place` and `finish` add what is
settled of the fields before. -/
structure Sits (whole : Row β₀ π₀) (row : Row β π) (place : π → π₀) (finish : β → β₀) : Prop where
  fill : ∀ {σ : Type} (take : {α : Type} → Format α → Except Fault (α × σ)) (key : String)
    (slots : π), key ∈ row.keys → whole.fill take key (place slots) =
      (row.fill take key slots).map (Option.map fun filled => (place filled.1, filled.2))
  complete : ∀ slots, whole.complete (place slots) = (row.complete slots).map finish

theorem sits_whole (row : Row β π) : row.Sits row id id where
  fill take key slots _ := by
    change row.fill take key slots = _
    rcases row.fill take key slots with e | (_ | _) <;> rfl
  complete slots := by
    change row.complete slots = _
    cases row.complete slots <;> rfl

/-- The place moves on to the next field once a field is settled. -/
theorem Sits.next {whole : Row β₀ π₀} {field : Field α} {rest : Row β π}
    {place : Option α × π → π₀} {finish : α × β → β₀}
    (h : whole.Sits (.cons field rest) place finish) (hKey : field.key ∉ rest.keys)
    {slot : Option α} {x : α} (hSettled : slot.or field.missing? = some x) :
    whole.Sits rest (fun slots => place (slot, slots)) (fun xs => finish (x, xs)) where
  fill take key slots hMem := by
    have hOther : key ≠ field.key := by
      rintro rfl
      exact hKey hMem
    rw [h.fill take key (slot, slots) (List.mem_cons_of_mem _ hMem), Row.fill, if_neg hOther]
    rcases rest.fill take key slots with e | (_ | _) <;> rfl
  complete slots := by
    rw [h.complete, complete_cons, hSettled]
    dsimp only
    cases rest.complete slots <;> rfl

theorem fill_head {σ : Type} (take : {α : Type} → Format α → Except Fault (α × σ))
    (field : Field α) (rest : Row β π) (slots : π) {x : α} {s : σ}
    (hTake : take field.format = .ok (x, s)) :
    (cons field rest).fill take field.key (none, slots) = .ok (some ((some x, slots), s)) := by
  rw [fill, if_pos rfl, if_neg (by simp), hTake]
  rfl

variable {levels : Nat} {row : Row β π} {valid : β → Prop} {validSlots : π → Prop}

/-- The members that a row is written as are read as the row, wherever the row sits in a record. -/
theorem readMembers_toMembers {whole : Row β₀ π₀} {place : π → π₀} {finish : β → β₀}
    (hRow : row.Faithful levels valid validSlots) (hKeys : row.keys.Nodup)
    (hSits : whole.Sits row place finish) {depth : Nat} (hDepth : levels < depth) {xs : β}
    (hValid : valid xs) {fuel : Nat} (hFuel : (row.toMembers xs).length < fuel) (first : Bool)
    (rest : Bytes) :
    whole.readMembers depth fuel first (place row.blank)
      (membersText first (row.toMembers xs) (125 :: rest)) = .ok (finish xs, 125 :: rest) := by
  induction hRow generalizing fuel first with
  | nil =>
    cases fuel with
    | zero => cases hFuel
    | succ fuel =>
      have hText : membersText first (Row.nil.toMembers xs) (125 :: rest) = 125 :: rest := by
        cases first <;> rfl
      have hEnd : nextKey first (125 :: rest) = .ok none := rfl
      rw [hText, readMembers, hEnd, bind_ok]
      dsimp only
      rw [hSits.complete]
      rfl
  | @cons α β π field tail validField valid validSlots hField _ ih =>
    obtain ⟨x, xs⟩ := xs
    obtain ⟨hx, hxs⟩ := hValid
    obtain ⟨hKey, hKeys⟩ := List.nodup_cons.1 hKeys
    by_cases hHidden : field.hidden x = true
    · -- The field is not written, and its absence stands for its value.
      have hMembers : (cons field tail).toMembers (x, xs) = tail.toMembers xs := if_pos hHidden
      rw [hMembers] at hFuel ⊢
      have hSettled : (none : Option α).or field.missing? = some x :=
        hField.missing_of_hidden x hx hHidden
      exact ih hKeys (hSits.next hKey hSettled) hxs hFuel first
    · have hMembers : (cons field tail).toMembers (x, xs) =
          (field.key, field.format.toJson x) :: tail.toMembers xs := if_neg hHidden
      rw [hMembers] at hFuel ⊢
      cases fuel with
      | zero => cases hFuel
      | succ fuel =>
        have hRead := hField.format.read_write x hx depth hDepth _
          (isDelimited_writeMembers (tail.toMembers xs) rest)
        have hTake : (do field.format.read depth (← readColon
            (58 :: writeOnto (field.format.toJson x)
              (writeMembers (tail.toMembers xs) (125 :: rest))))) =
            .ok (x, writeMembers (tail.toMembers xs) (125 :: rest)) := hRead
        have hNext : whole.Sits tail (fun slots => place (some x, slots))
            fun xs => finish (x, xs) := hSits.next hKey rfl
        have hRest := ih hKeys hNext hxs (Nat.lt_of_succ_lt_succ hFuel) false
        rw [readMembers, nextKey_membersText, bind_ok]
        dsimp only
        rw [hSits.fill _ _ _ List.mem_cons_self, blank, fill_head _ field tail tail.blank hTake]
        exact hRest

/-! ## Validity of what is read -/

theorem Faithful.valid_blank (hRow : row.Faithful levels valid validSlots) :
    validSlots row.blank := by
  induction hRow with
  | nil => trivial
  | cons _ _ ih =>
    refine ⟨fun x hMem => ?_, ih⟩
    cases hMem

theorem Faithful.valid_complete (hRow : row.Faithful levels valid validSlots) {slots : π}
    (hSlots : validSlots slots) {xs : β} (hRead : row.complete slots = .ok xs) : valid xs := by
  induction hRow with
  | nil => trivial
  | cons hField _ ih =>
    obtain ⟨slot, slots⟩ := slots
    rw [complete_cons] at hRead
    split at hRead
    · rename_i x hSettled
      obtain ⟨rest, hRest, rfl⟩ := map_eq_ok_iff.1 hRead
      refine ⟨?_, ih hSlots.2 hRest⟩
      rcases Option.or_eq_some_iff.1 hSettled with hCome | ⟨-, hMissing⟩
      · exact hSlots.1 x hCome
      · exact hField.valid_missing hMissing
    · cases hRead

theorem Faithful.valid_fill (hRow : row.Faithful levels valid validSlots) {σ : Type}
    {take : {α : Type} → Format α → Except Fault (α × σ)}
    (hTake : ∀ {α : Type} (f : Format α) (validField : α → Prop), f.Faithful levels validField →
      ∀ x s, take f = .ok (x, s) → validField x)
    {key : String} {slots slots' : π} {s : σ} (hSlots : validSlots slots)
    (hFill : row.fill take key slots = .ok (some (slots', s))) : validSlots slots' := by
  induction hRow with
  | nil => cases hFill
  | cons hField _ ih =>
    obtain ⟨slot, slots⟩ := slots
    rw [fill] at hFill
    split at hFill
    · split at hFill
      · cases hFill
      · obtain ⟨⟨x, s'⟩, hValue, hSame⟩ := bind_eq_ok_iff.1 hFill
        obtain ⟨rfl, -⟩ := Prod.mk.inj (Option.some.inj (Except.ok.inj hSame))
        refine ⟨fun y hMem => ?_, hSlots.2⟩
        obtain rfl := Option.some.inj hMem
        exact hTake _ _ hField.format _ _ hValue
    · obtain ⟨filled, hRest, hSame⟩ := bind_eq_ok_iff.1 hFill
      cases filled with
      | none => cases hSame
      | some filled =>
        obtain ⟨rest', s'⟩ := filled
        obtain ⟨rfl, rfl⟩ := Prod.mk.inj (Option.some.inj (Except.ok.inj hSame))
        exact ⟨hSlots.1, ih hSlots.2 hRest⟩

theorem Faithful.valid_readMembers (hRow : row.Faithful levels valid validSlots)
    {depth fuel : Nat} {first : Bool} {slots : π} {input rest : Bytes} {xs : β}
    (hSlots : validSlots slots)
    (hRead : row.readMembers depth fuel first slots input = .ok (xs, rest)) : valid xs := by
  induction fuel generalizing first slots input with
  | zero => cases hRead
  | succ fuel ih =>
    rw [readMembers] at hRead
    obtain ⟨next, -, hRead⟩ := bind_eq_ok_iff.1 hRead
    cases next with
    | none =>
      obtain ⟨ys, hComplete, hSame⟩ := bind_eq_ok_iff.1 hRead
      obtain ⟨rfl, -⟩ := Prod.mk.inj (Except.ok.inj hSame)
      exact hRow.valid_complete hSlots hComplete
    | some next =>
      obtain ⟨key, input'⟩ := next
      obtain ⟨filled, hFill, hRead⟩ := bind_eq_ok_iff.1 hRead
      cases filled with
      | none =>
        obtain ⟨_, -, hRead⟩ := bind_eq_ok_iff.1 hRead
        obtain ⟨_, -, hRead⟩ := bind_eq_ok_iff.1 hRead
        exact ih hSlots hRead
      | some filled =>
        refine ih (hRow.valid_fill (fun f validField hFormat x s hTake => ?_) hSlots hFill) hRead
        obtain ⟨_, -, hValue⟩ := bind_eq_ok_iff.1 hTake
        exact hFormat.valid_read _ _ _ _ hValue

theorem Faithful.valid_ofMembers (hRow : row.Faithful levels valid validSlots)
    {members : List (String × Json)} {slots : π} {xs : β} (hSlots : validSlots slots)
    (hRead : row.ofMembers slots members = .ok xs) : valid xs := by
  induction members generalizing slots with
  | nil => exact hRow.valid_complete hSlots hRead
  | cons member members ih =>
    rw [ofMembers] at hRead
    obtain ⟨filled, hFill, hRead⟩ := bind_eq_ok_iff.1 hRead
    cases filled with
    | none => exact ih hSlots hRead
    | some filled =>
      refine ih (hRow.valid_fill (fun f validField hFormat x s hTake => ?_) hSlots hFill) hRead
      obtain ⟨y, hValue, hSame⟩ := bind_eq_ok_iff.1 hTake
      obtain ⟨rfl, -⟩ := Prod.mk.inj (Except.ok.inj hSame)
      exact hFormat.valid_ofTree _ _ hValue

theorem Faithful.valid_readItems (hRow : row.Faithful levels valid validSlots) {expected : String}
    {depth index : Nat} {input rest : Bytes} {xs : β}
    (hRead : row.readItems expected depth index input = .ok (xs, rest)) : valid xs := by
  induction hRow generalizing index input with
  | nil => trivial
  | cons hField _ ih =>
    rw [readItems] at hRead
    obtain ⟨next, -, hRead⟩ := bind_eq_ok_iff.1 hRead
    cases next with
    | some input' =>
      obtain ⟨⟨x, _⟩, hFirst, hRead⟩ := bind_eq_ok_iff.1 hRead
      obtain ⟨⟨ys, _⟩, hRest, hSame⟩ := bind_eq_ok_iff.1 hRead
      obtain ⟨rfl, rfl⟩ := Prod.mk.inj (Except.ok.inj hSame)
      exact ⟨hField.format.valid_read _ _ _ _ hFirst, ih hRest⟩
    | none =>
      dsimp only at hRead
      split at hRead
      · rename_i x hDefault
        obtain ⟨⟨ys, _⟩, hRest, hSame⟩ := bind_eq_ok_iff.1 hRead
        obtain ⟨rfl, rfl⟩ := Prod.mk.inj (Except.ok.inj hSame)
        exact ⟨hField.valid_default x hDefault, ih hRest⟩
      · cases hRead

theorem Faithful.valid_ofItems (hRow : row.Faithful levels valid validSlots) {expected : String}
    {index : Nat} {items : List Json} {xs : β}
    (hRead : row.ofItems expected index items = .ok xs) : valid xs := by
  induction hRow generalizing index items with
  | nil => trivial
  | cons hField _ ih =>
    cases items with
    | cons item items =>
      obtain ⟨x, hFirst, hRead⟩ := bind_eq_ok_iff.1 hRead
      obtain ⟨ys, hRest, hSame⟩ := bind_eq_ok_iff.1 hRead
      obtain rfl := Except.ok.inj hSame
      exact ⟨hField.format.valid_ofTree _ _ hFirst, ih hRest⟩
    | nil =>
      rw [ofItems] at hRead
      split at hRead
      · rename_i x hDefault
        obtain ⟨ys, hRest, hSame⟩ := bind_eq_ok_iff.1 hRead
        obtain rfl := Except.ok.inj hSame
        exact ⟨hField.valid_default x hDefault, ih hRest⟩
      · cases hRead

end Row

/-! ## Records -/

section

variable {levels : Nat} {row : Row β π} {valid : β → Prop} {validSlots : π → Prop}

/-- What records do with an object whose opening brace has been read. -/
def Row.readObject (row : Row β π) (depth : Nat) (rest : Bytes) : Except Fault (β × Bytes) := do
  let depth ← descend depth
  let (xs, rest) ← row.readMembers depth (rest.length + 1) true row.blank rest
  .ok (xs, ← closeObject rest)

theorem Row.readObject_toMembers (hRow : row.Faithful levels valid validSlots)
    (hKeys : row.keys.Nodup) {depth : Nat} (hDepth : levels + 1 < depth) {xs : β}
    (hValid : valid xs) (rest : Bytes) :
    row.readObject depth (membersText true (row.toMembers xs) (125 :: rest)) = .ok (xs, rest) := by
  have hDescend : descend depth = .ok (depth - 1) := if_neg (by omega)
  have hFuel : (row.toMembers xs).length <
      (membersText true (row.toMembers xs) (125 :: rest)).length + 1 := by
    have hLength := length_le_membersText true (row.toMembers xs) (125 :: rest)
    rw [List.length_cons] at hLength
    omega
  have hInside : levels < depth - 1 := by omega
  have hMembers :=
    Row.readMembers_toMembers hRow hKeys row.sits_whole hInside hValid hFuel true rest
  dsimp only [id] at hMembers
  rw [readObject, hDescend, bind_ok, hMembers]
  rfl

theorem Row.Faithful.valid_readObject (hRow : row.Faithful levels valid validSlots) {depth : Nat}
    {input rest : Bytes} {xs : β} (hRead : row.readObject depth input = .ok (xs, rest)) :
    valid xs := by
  obtain ⟨_, -, hRead⟩ := bind_eq_ok_iff.1 hRead
  obtain ⟨⟨ys, _⟩, hMembers, hRead⟩ := bind_eq_ok_iff.1 hRead
  obtain ⟨_, -, hSame⟩ := bind_eq_ok_iff.1 hRead
  obtain ⟨rfl, -⟩ := Prod.mk.inj (Except.ok.inj hSame)
  exact hRow.valid_readMembers hRow.valid_blank hMembers

theorem record_read (name : String) (row : Row β π) (depth : Nat) (rest : Bytes) :
    (record name row).read depth (123 :: rest) = row.readObject depth rest := rfl

theorem record_faithful {name : String} (hRow : row.Faithful levels valid validSlots)
    (hKeys : row.keys.Nodup) : (record name row).Faithful (levels + 1) valid where
  read_write xs hValid depth hDepth rest _ := by
    change (record name row).read depth (writeOnto (.object (row.toMembers xs)) rest) = _
    rw [writeOnto_object, record_read]
    exact Row.readObject_toMembers hRow hKeys hDepth hValid rest
  plain _ _ := trivial
  valid_read depth input xs rest hRead := by
    simp only [record] at hRead
    split at hRead
    · obtain ⟨_, -, hRead⟩ := bind_eq_ok_iff.1 hRead
      obtain ⟨⟨ys, _⟩, hItems, hRead⟩ := bind_eq_ok_iff.1 hRead
      obtain ⟨_, -, hSame⟩ := bind_eq_ok_iff.1 hRead
      obtain ⟨rfl, -⟩ := Prod.mk.inj (Except.ok.inj hSame)
      exact hRow.valid_readItems hItems
    · exact hRow.valid_readObject hRead
    · exact absurd hRead unexpected_ne_ok
  valid_ofTree j xs hRead := by
    cases j with
    | array items => exact hRow.valid_ofItems hRead
    | object members => exact hRow.valid_ofMembers hRow.valid_blank hRead
    | null | bool | int | float | string => cases hRead
  valid_absent _ hAbsent := by cases hAbsent

theorem objectOnly_read (expected : String) (row : Row β π) (depth : Nat) (rest : Bytes) :
    (objectOnly expected row).read depth (123 :: rest) = row.readObject depth rest := rfl

theorem objectOnly_faithful {expected : String} (hRow : row.Faithful levels valid validSlots)
    (hKeys : row.keys.Nodup) : (objectOnly expected row).Faithful (levels + 1) valid where
  read_write xs hValid depth hDepth rest _ := by
    change (objectOnly expected row).read depth (writeOnto (.object (row.toMembers xs)) rest) = _
    rw [writeOnto_object, objectOnly_read]
    exact Row.readObject_toMembers hRow hKeys hDepth hValid rest
  plain _ _ := trivial
  valid_read depth input xs rest hRead := by
    simp only [objectOnly] at hRead
    split at hRead
    · obtain ⟨_, -, hWrong⟩ := bind_eq_ok_iff.1 hRead
      exact absurd hWrong unexpected_ne_ok
    · exact hRow.valid_readObject hRead
    · exact absurd hRead unexpected_ne_ok
  valid_ofTree j xs hRead := by
    cases j with
    | object members => exact hRow.valid_ofMembers hRow.valid_blank hRead
    | null | bool | int | float | string | array => cases hRead
  valid_absent _ hAbsent := by cases hAbsent

end

end Format

end Tenancy.Json
