import Tenancy.Json.Format
import Tenancy.Proofs.Json.Scalar
import Tenancy.Proofs.Operation

/-!
# Faithful formats

A format is faithful to some values of its type if it reads each of them back from its written form,
wherever the form stands in a text, and gives no others, whatever it reads.  A value that has been
read can therefore be written and read again.

* `Format.Faithful`: the two properties, and what is needed of the written form to have them inside
  of arrays and objects.
* The formats of scalars, lists and options are faithful if their parts are.
-/

namespace Tenancy.Json

variable {α β : Type}

/-! ## Written forms -/

/-- The value is no floating-point number. -/
def IsPlain : Json → Prop
  | .float _ => False
  | _ => True

/-- A byte that a value other than a floating-point number can begin with. -/
def IsOpening (b : UInt8) : Prop :=
  b = 34 ∨ b = 45 ∨ b = 91 ∨ b = 102 ∨ b = 110 ∨ b = 116 ∨ b = 123 ∨ isDigit b = true

instance (b : UInt8) : Decidable (IsOpening b) := inferInstanceAs (Decidable (_ ∨ _))

/-- The written form of an integer is its numeral, after a minus sign if it is negative. -/
theorem writeOnto_int (n : Int) (rest : Bytes) :
    writeOnto (.int n) rest =
      if n < 0 then 45 :: (numeralBytes n.natAbs ++ rest) else numeralBytes n.toNat ++ rest := by
  rw [writeOnto, intText]
  split
  · rw [ascii, String.toList_append, List.map_append]
    have hDigits := ascii_ofList (Nat.toDigits 10 n.natAbs)
    rw [ascii] at hDigits
    rw [hDigits]
    rfl
  · rw [ascii_ofList]
    rfl

/-- A written form begins with an opening byte, and with that of `null` only for `null`. -/
theorem exists_opening {j : Json} (hPlain : IsPlain j) (rest : Bytes) :
    ∃ b bytes, writeOnto j rest = b :: bytes ∧ IsOpening b ∧ (b = 110 → j = .null) := by
  cases j with
  | null => exact ⟨110, _, rfl, by decide, fun _ => rfl⟩
  | bool b => cases b <;> exact ⟨_, _, rfl, by decide, fun h => absurd h (by decide)⟩
  | int n =>
    rw [writeOnto_int]
    split
    · exact ⟨45, _, rfl, by decide, fun h => absurd h (by decide)⟩
    · obtain ⟨b, bytes, hBytes⟩ := exists_numeralBytes n.toNat
      have hDigit : isDigit b = true := isDigit_of_mem_numeralBytes (hBytes ▸ List.mem_cons_self)
      refine ⟨b, bytes ++ rest, by rw [hBytes]; rfl, ?_, ?_⟩
      · simp [IsOpening, hDigit]
      · rintro rfl
        cases hDigit
  | float x => exact hPlain.elim
  | string s => exact ⟨34, _, rfl, by decide, fun h => absurd h (by decide)⟩
  | array items => cases items <;> exact ⟨91, _, rfl, by decide, fun h => absurd h (by decide)⟩
  | object members =>
    cases members <;> exact ⟨123, _, rfl, by decide, fun h => absurd h (by decide)⟩

theorem length_le_writeEscaped (bytes rest : Bytes) :
    rest.length ≤ (writeEscaped bytes rest).length := by
  induction bytes with
  | nil => exact Nat.le_succ _
  | cons b bytes ih =>
    rw [writeEscaped, List.length_append]
    exact Nat.le_add_left_of_le ih

mutual

/-- A written form takes no byte from what follows it. -/
theorem length_le_writeOnto (rest : Bytes) (j : Json) :
    rest.length ≤ (writeOnto j rest).length := by
  match j with
  | .null | .bool true | .bool false | .int n | .float x =>
    simp only [writeOnto, List.length_append]
    exact Nat.le_add_left _ _
  | .string s => exact Nat.le_succ_of_le (length_le_writeEscaped (utf8 s) rest)
  | .array [] | .object [] => exact Nat.le_add_right _ 2
  | .array (item :: items) =>
    have hItem := length_le_writeOnto (writeItems items (93 :: rest)) item
    have hItems := length_le_writeItems (93 :: rest) items
    simp only [writeOnto, List.length_cons] at hItem hItems ⊢
    omega
  | .object (member :: members) =>
    have hKey := length_le_writeEscaped (utf8 member.1)
      (58 :: writeOnto member.2 (writeMembers members (125 :: rest)))
    have hValue := length_le_writeOnto (writeMembers members (125 :: rest)) member.2
    have hMembers := length_le_writeMembers (125 :: rest) members
    simp only [writeOnto, writeString, List.length_cons] at hKey hValue hMembers ⊢
    omega

theorem length_le_writeItems (rest : Bytes) (items : List Json) :
    items.length + rest.length ≤ (writeItems items rest).length := by
  match items with
  | [] => exact Nat.le_of_eq (Nat.zero_add _)
  | item :: items =>
    have hItem := length_le_writeOnto (writeItems items rest) item
    have hItems := length_le_writeItems rest items
    simp only [writeItems, List.length_cons]
    omega

theorem length_le_writeMembers (rest : Bytes) (members : List (String × Json)) :
    members.length + rest.length ≤ (writeMembers members rest).length := by
  match members with
  | [] => exact Nat.le_of_eq (Nat.zero_add _)
  | member :: members =>
    have hKey := length_le_writeEscaped (utf8 member.1)
      (58 :: writeOnto member.2 (writeMembers members rest))
    have hValue := length_le_writeOnto (writeMembers members rest) member.2
    have hMembers := length_le_writeMembers rest members
    simp only [writeMembers, writeString, List.length_cons] at hKey ⊢
    omega

end

theorem IsOpening.not_space {b : UInt8} (h : IsOpening b) : ¬ IsSpace b := by
  rintro (rfl | rfl | rfl | rfl) <;> revert h <;> decide

theorem IsOpening.ne_bracket {b : UInt8} (h : IsOpening b) : b ≠ 93 := by
  rintro rfl
  revert h
  decide

/-- No blanks come before a written form. -/
theorem skipSpace_writeOnto {j : Json} (hPlain : IsPlain j) (rest : Bytes) :
    skipSpace (writeOnto j rest) = writeOnto j rest := by
  obtain ⟨b, bytes, hBytes, hOpening, -⟩ := exists_opening hPlain rest
  rw [hBytes, skipSpace_of_not_space hOpening.not_space]

/-! ## Faithfulness -/

/-- What is not of the expected kind is never a value. -/
theorem unexpected_ne_ok {expected : String} {input : Bytes} {outcome : α × Bytes} :
    Reader.unexpected expected input ≠ .ok outcome := by
  intro hRead
  cases input with
  | nil => cases hRead
  | cons b rest =>
    simp only [Reader.unexpected] at hRead
    split at hRead
    · obtain ⟨_, _, hWrong⟩ := bind_eq_ok_iff.1 hRead
      cases hWrong
    split at hRead
    · obtain ⟨_, _, hWrong⟩ := bind_eq_ok_iff.1 hRead
      cases hWrong
    split at hRead
    · obtain ⟨_, _, hWrong⟩ := bind_eq_ok_iff.1 hRead
      cases hWrong
    split at hRead
    · obtain ⟨_, _, hWrong⟩ := bind_eq_ok_iff.1 hRead
      cases hWrong
    split at hRead
    · obtain ⟨_, _, hWrong⟩ := bind_eq_ok_iff.1 hRead
      cases hWrong
    split at hRead
    · obtain ⟨_, _, hWrong⟩ := bind_eq_ok_iff.1 hRead
      cases hWrong
    split at hRead
    · cases hRead
    split at hRead <;> cases hRead

/-- The format reads valid values back from what it writes for them, and gives no others.  `levels`
is the number of arrays and objects that are nested in a written form. -/
structure Format.Faithful (f : Format α) (levels : Nat) (valid : α → Prop) : Prop where
  read_write : ∀ x, valid x → ∀ depth, levels < depth → ∀ rest, IsDelimited rest →
    f.read depth (writeOnto (f.toJson x) rest) = .ok (x, rest)
  plain : ∀ x, valid x → IsPlain (f.toJson x)
  valid_read : ∀ depth input x rest, f.read depth input = .ok (x, rest) → valid x
  valid_ofTree : ∀ j x, f.ofTree j = .ok x → valid x
  valid_absent : ∀ x, f.absent = some x → valid x

namespace Format.Faithful

variable {f : Format α} {levels : Nat} {valid : α → Prop}

theorem mono (h : f.Faithful levels valid) {more : Nat} (hMore : levels ≤ more) :
    f.Faithful more valid where
  read_write x hValid depth hDepth := h.read_write x hValid depth (Nat.lt_of_le_of_lt hMore hDepth)
  plain := h.plain
  valid_read := h.valid_read
  valid_ofTree := h.valid_ofTree
  valid_absent := h.valid_absent

/-- A value is read back from the text that is written for it. -/
theorem decode_encode (h : f.Faithful levels valid) (hLevels : levels < nestingLimit) {x : α}
    (hValid : valid x) : f.decode (f.encode x) = .ok x := by
  have hRead := h.read_write x hValid nestingLimit hLevels [] isDelimited_nil
  rw [decode, encode, compact, readAll, hRead]
  rfl

/-- The value of a text is valid. -/
theorem valid_decode (h : f.Faithful levels valid) {bytes : Bytes} {x : α}
    (hRead : f.decode bytes = .ok x) : valid x := by
  rw [decode, readAll] at hRead
  obtain ⟨⟨y, rest⟩, hValue, hEnd⟩ := bind_eq_ok_iff.1 hRead
  dsimp only at hEnd
  split at hEnd
  · obtain rfl := Except.ok.inj hEnd
    exact h.valid_read _ _ _ _ hValue
  · cases hEnd

theorem imap (h : f.Faithful levels valid) {valid' : β → Prop} {forth : α → β} {back : β → α}
    (hInverse : ∀ y, forth (back y) = y) (hBack : ∀ y, valid' y → valid (back y))
    (hForth : ∀ x, valid x → valid' (forth x)) :
    (f.imap forth back).Faithful levels valid' where
  read_write y hValid depth hDepth rest hRest := by
    have hRead := h.read_write (back y) (hBack y hValid) depth hDepth rest hRest
    change (f.read depth (writeOnto (f.toJson (back y)) rest)).map _ = _
    rw [hRead, map_ok]
    dsimp only
    rw [hInverse]
  plain y hValid := h.plain (back y) (hBack y hValid)
  valid_read depth input y rest hRead := by
    obtain ⟨⟨x, rest'⟩, hInner, hSame⟩ := map_eq_ok_iff.1 hRead
    obtain ⟨rfl, -⟩ := Prod.mk.inj hSame
    exact hForth x (h.valid_read _ _ _ _ hInner)
  valid_ofTree j y hRead := by
    obtain ⟨x, hInner, rfl⟩ := map_eq_ok_iff.1 hRead
    exact hForth x (h.valid_ofTree _ _ hInner)
  valid_absent y hAbsent := by
    obtain ⟨x, hInner, rfl⟩ := Option.map_eq_some_iff.1 hAbsent
    exact hForth x (h.valid_absent _ hInner)

end Format.Faithful

/-! ## Scalars -/

namespace Format

theorem text_faithful {levels : Nat} : text.Faithful levels fun _ => True where
  read_write s _ _ _ rest _ := readString_writeEscaped s rest
  plain _ _ := trivial
  valid_read _ _ _ _ _ := trivial
  valid_ofTree _ _ _ := trivial
  valid_absent _ _ := trivial

theorem bool_faithful {levels : Nat} : bool.Faithful levels fun _ => True where
  read_write b _ _ _ rest _ := by cases b <;> rfl
  plain _ _ := trivial
  valid_read _ _ _ _ _ := trivial
  valid_ofTree _ _ _ := trivial
  valid_absent _ _ := trivial

/-- Texts in a notation of their own, if the notation is read back from what is written in it. -/
theorem spelled_faithful {expected : String} {parse : String → Except String α} {print : α → String}
    {levels : Nat} {valid : α → Prop} (hParse : ∀ x, valid x → parse (print x) = .ok x)
    (hValid : ∀ s x, parse s = .ok x → valid x) :
    (spelled expected parse print).Faithful levels valid where
  read_write x hx _ _ rest _ := by
    simp only [spelled, writeOnto, writeString]
    rw [skipSpace_of_not_space (by decide)]
    split
    · rename_i hHead
      obtain rfl := (List.cons.inj hHead).2
      rw [readString_writeEscaped, bind_ok]
      dsimp only
      rw [hParse x hx]
      rfl
    · rename_i hOther
      exact absurd rfl (hOther _)
  plain _ _ := trivial
  valid_read depth input x rest hRead := by
    simp only [spelled] at hRead
    split at hRead
    · obtain ⟨⟨s, rest'⟩, -, hCheck⟩ := bind_eq_ok_iff.1 hRead
      obtain ⟨y, hParsed, hSame⟩ := bind_eq_ok_iff.1 hCheck
      obtain ⟨rfl, -⟩ := Prod.mk.inj (Except.ok.inj hSame)
      split at hParsed
      · rename_i hSome
        obtain rfl := Except.ok.inj hParsed
        exact hValid _ _ hSome
      · cases hParsed
    · exact absurd hRead unexpected_ne_ok
  valid_ofTree j x hRead := by
    simp only [spelled] at hRead
    cases j with
    | string s =>
      dsimp only at hRead
      split at hRead
      · rename_i hSome
        obtain rfl := Except.ok.inj hRead
        exact hValid _ _ hSome
      · cases hRead
    | null | bool | int | float | array | object => cases hRead
  valid_absent x hAbsent := by cases hAbsent

theorem bounded_eq_ok {expected : String} {low high n : Int} {number : Number}
    (hRead : bounded expected low high number = .ok n) : low ≤ n ∧ n ≤ high := by
  cases number with
  | int m =>
    rw [bounded] at hRead
    split at hRead
    · rename_i hBounds
      obtain rfl := Except.ok.inj hRead
      exact hBounds
    · cases hRead
  | float x => cases hRead

theorem integer_read_written (expected : String) {low high n : Int}
    (hLow : -0x8000000000000000 ≤ low) (hHigh : high ≤ 0xffffffffffffffff)
    (hn : low ≤ n ∧ n ≤ high) (depth : Nat) {rest : Bytes} (hRest : IsDelimited rest) :
    (integer expected low high).read depth (writeOnto (.int n) rest) = .ok (n, rest) := by
  have hBounded : bounded expected low high (.int n) = .ok n := if_pos hn
  simp only [integer]
  rw [skipSpace_writeOnto (j := .int n) trivial, writeOnto_int]
  by_cases hNegative : n < 0
  · have hAbs : 0 < n.natAbs ∧ n.natAbs ≤ 0x8000000000000000 := by omega
    have hFits : n.natAbs ≤ maxSignificand := Nat.le_trans hAbs.2 (by decide)
    have hNumber : Json.integer true n.natAbs = .int n := by
      have hSame : (-(n.natAbs : Int)) = n := by omega
      rw [Json.integer, if_neg (by decide), if_pos hAbs, hSame]
    rw [if_pos hNegative]
    dsimp only
    rw [if_pos rfl, readNumber_digits true hFits hRest, bind_ok, hNumber, hBounded]
    rfl
  · have hFits : n.toNat ≤ maxSignificand := by
      rw [maxSignificand]
      omega
    have hNumber : Json.integer false n.toNat = .int n := by
      have hSame : (n.toNat : Int) = n := by omega
      rw [Json.integer, if_pos (by decide), hSame]
    have hRead := readNumber_digits false hFits hRest
    obtain ⟨b, bytes, hBytes⟩ := exists_numeralBytes n.toNat
    have hDigit : isDigit b = true := isDigit_of_mem_numeralBytes (hBytes ▸ List.mem_cons_self)
    have hSign : b ≠ 45 := by
      rintro rfl
      cases hDigit
    rw [hBytes] at hRead
    rw [if_neg hNegative, hBytes]
    dsimp only [List.cons_append] at hRead ⊢
    rw [if_neg hSign, if_pos hDigit, hRead, bind_ok, hNumber, hBounded]
    rfl

theorem integer_faithful (expected : String) {levels : Nat} {low high : Int}
    (hLow : -0x8000000000000000 ≤ low) (hHigh : high ≤ 0xffffffffffffffff) :
    (integer expected low high).Faithful levels fun n => low ≤ n ∧ n ≤ high where
  read_write n hn depth _ rest hRest :=
    integer_read_written expected hLow hHigh hn depth hRest
  plain _ _ := trivial
  valid_read depth input n rest hRead := by
    simp only [integer] at hRead
    split at hRead
    · cases hRead
    split at hRead
    · obtain ⟨_, _, hNumber⟩ := bind_eq_ok_iff.1 hRead
      obtain ⟨m, hBounded, hSame⟩ := bind_eq_ok_iff.1 hNumber
      obtain ⟨rfl, -⟩ := Prod.mk.inj (Except.ok.inj hSame)
      exact bounded_eq_ok hBounded
    split at hRead
    · obtain ⟨_, _, hNumber⟩ := bind_eq_ok_iff.1 hRead
      obtain ⟨m, hBounded, hSame⟩ := bind_eq_ok_iff.1 hNumber
      obtain ⟨rfl, -⟩ := Prod.mk.inj (Except.ok.inj hSame)
      exact bounded_eq_ok hBounded
    · exact absurd hRead unexpected_ne_ok
  valid_ofTree j n hRead := by
    cases j with
    | int m =>
      have hBounded : bounded expected low high (.int m) = .ok n := hRead
      exact bounded_eq_ok hBounded
    | null | bool | float | string | array | object => cases hRead
  valid_absent n hAbsent := by cases hAbsent

theorem natural_faithful (expected : String) {levels high : Nat}
    (hHigh : high ≤ 0xffffffffffffffff) :
    (natural expected high).Faithful levels fun n => n ≤ high := by
  have hInteger : (integer expected 0 high).Faithful levels fun n => 0 ≤ n ∧ n ≤ (high : Int) :=
    integer_faithful expected (by decide) (by omega)
  refine hInteger.imap (fun n => rfl) (fun n hn => ?_) fun n hn => ?_
  · change (0 : Int) ≤ n ∧ (n : Int) ≤ high
    omega
  · omega

/-! ## Lists and options -/

/-- The items of an array up to its closing bracket, the first of them without a comma. -/
def itemsText : (first : Bool) → List Json → Bytes → Bytes
  | true, item :: items, rest => writeOnto item (writeItems items rest)
  | _, items, rest => writeItems items rest

theorem writeOnto_array (items : List Json) (rest : Bytes) :
    writeOnto (.array items) rest = 91 :: itemsText true items (93 :: rest) := by
  cases items <;> rfl

theorem nextItem_itemsText (first : Bool) {item : Json} (hPlain : IsPlain item)
    (items : List Json) (rest : Bytes) :
    nextItem first (itemsText first (item :: items) rest) =
      .ok (some (writeOnto item (writeItems items rest))) := by
  have hSkip := skipSpace_writeOnto hPlain (writeItems items rest)
  obtain ⟨b, bytes, hBytes, hOpening, -⟩ := exists_opening hPlain (writeItems items rest)
  cases first with
  | true =>
    rw [itemsText, nextItem, hSkip, hBytes]
    dsimp only
    rw [if_neg hOpening.ne_bracket, if_pos rfl]
  | false =>
    change nextItem false (44 :: writeOnto item (writeItems items rest)) = _
    rw [nextItem, skipSpace_of_not_space (by decide)]
    dsimp only
    rw [if_neg (by decide), if_neg (by decide), if_pos rfl, hSkip, hBytes]
    dsimp only
    rw [if_neg hOpening.ne_bracket]

theorem isDelimited_writeItems (items : List Json) (rest : Bytes) :
    IsDelimited (writeItems items (93 :: rest)) := by
  cases items with
  | nil => exact isDelimited_cons (.inr (.inl rfl))
  | cons item items => exact isDelimited_cons (.inl rfl)

variable {f : Format α} {levels : Nat} {valid : α → Prop}

theorem Faithful.items_itemsText (h : f.Faithful levels valid) {depth : Nat}
    (hDepth : levels < depth) {xs : List α} (hValid : ∀ x ∈ xs, valid x) {fuel : Nat}
    (hFuel : xs.length < fuel) (first : Bool) (rest : Bytes) :
    Reader.items (f.read depth) fuel first (itemsText first (xs.map f.toJson) (93 :: rest)) =
      .ok (xs, 93 :: rest) := by
  induction xs generalizing fuel first with
  | nil =>
    obtain ⟨fuel, rfl⟩ := Nat.exists_eq_add_of_lt hFuel
    cases first <;> rfl
  | cons x xs ih =>
    obtain ⟨hFirst, hRest⟩ := List.forall_mem_cons.1 hValid
    cases fuel with
    | zero => cases hFuel
    | succ fuel =>
      have hRead := h.read_write x hFirst depth hDepth _
        (isDelimited_writeItems (xs.map f.toJson) rest)
      have hMore : Reader.items (f.read depth) fuel false
          (writeItems (xs.map f.toJson) (93 :: rest)) = .ok (xs, 93 :: rest) :=
        ih hRest (Nat.lt_of_succ_lt_succ hFuel) false
      rw [List.map_cons, Reader.items, nextItem_itemsText first (h.plain x hFirst), bind_ok]
      dsimp only
      rw [hRead, bind_ok]
      dsimp only
      rw [hMore]
      rfl

theorem length_le_itemsText (first : Bool) (items : List Json) (rest : Bytes) :
    items.length + rest.length ≤ (itemsText first items rest).length + 1 := by
  cases first with
  | false => exact Nat.le_succ_of_le (length_le_writeItems rest items)
  | true =>
    cases items with
    | nil => exact Nat.le_succ_of_le (length_le_writeItems rest [])
    | cons item items =>
      have hItem := length_le_writeOnto (writeItems items rest) item
      have hItems := length_le_writeItems rest items
      simp only [itemsText, List.length_cons]
      omega

theorem Faithful.valid_items (h : f.Faithful levels valid) {depth fuel : Nat} {first : Bool}
    {input rest : Bytes} {xs : List α}
    (hRead : Reader.items (f.read depth) fuel first input = .ok (xs, rest)) :
    ∀ x ∈ xs, valid x := by
  induction fuel generalizing first input rest xs with
  | zero => cases hRead
  | succ fuel ih =>
    rw [Reader.items] at hRead
    obtain ⟨next, -, hRead⟩ := bind_eq_ok_iff.1 hRead
    cases next with
    | none =>
      obtain ⟨rfl, -⟩ := Prod.mk.inj (Except.ok.inj hRead)
      exact fun x hMem => absurd hMem List.not_mem_nil
    | some input' =>
      obtain ⟨⟨y, input''⟩, hItem, hRead⟩ := bind_eq_ok_iff.1 hRead
      obtain ⟨⟨ys, _⟩, hItems, hSame⟩ := bind_eq_ok_iff.1 hRead
      obtain ⟨rfl, -⟩ := Prod.mk.inj (Except.ok.inj hSame)
      exact List.forall_mem_cons.2 ⟨h.valid_read _ _ _ _ hItem, ih hItems⟩

theorem Faithful.valid_mapM (h : f.Faithful levels valid) {items : List Json} {xs : List α}
    (hRead : items.mapM f.ofTree = .ok xs) : ∀ x ∈ xs, valid x := by
  induction items generalizing xs with
  | nil =>
    obtain rfl := Except.ok.inj hRead
    exact fun x hMem => absurd hMem List.not_mem_nil
  | cons item items ih =>
    rw [List.mapM_cons] at hRead
    obtain ⟨y, hItem, hRead⟩ := bind_eq_ok_iff.1 hRead
    obtain ⟨ys, hItems, hSame⟩ := bind_eq_ok_iff.1 hRead
    obtain rfl := Except.ok.inj hSame
    exact List.forall_mem_cons.2 ⟨h.valid_ofTree _ _ hItem, ih hItems⟩

theorem list_read (f : Format α) (depth : Nat) (rest : Bytes) :
    f.list.read depth (91 :: rest) = (do
      let depth ← descend depth
      let (xs, rest) ← Reader.items (f.read depth) (rest.length + 1) true rest
      .ok (xs, ← closeArray rest)) := rfl

theorem Faithful.list (h : f.Faithful levels valid) :
    f.list.Faithful (levels + 1) fun xs => ∀ x ∈ xs, valid x where
  read_write xs hValid depth hDepth rest _ := by
    have hDescend : descend depth = .ok (depth - 1) := if_neg (by omega)
    have hFuel : xs.length < (itemsText true (xs.map f.toJson) (93 :: rest)).length + 1 := by
      have hLength := length_le_itemsText true (xs.map f.toJson) (93 :: rest)
      rw [List.length_map, List.length_cons] at hLength
      omega
    have hInside : levels < depth - 1 := by omega
    have hItems := h.items_itemsText hInside hValid hFuel true rest
    change f.list.read depth (writeOnto (.array (xs.map f.toJson)) rest) = _
    rw [writeOnto_array, list_read, hDescend, bind_ok, hItems]
    rfl
  plain _ _ := trivial
  valid_read depth input xs rest hRead := by
    simp only [Format.list] at hRead
    split at hRead
    · obtain ⟨depth', -, hRead⟩ := bind_eq_ok_iff.1 hRead
      obtain ⟨⟨ys, rest'⟩, hItems, hRead⟩ := bind_eq_ok_iff.1 hRead
      obtain ⟨_, -, hSame⟩ := bind_eq_ok_iff.1 hRead
      obtain ⟨rfl, -⟩ := Prod.mk.inj (Except.ok.inj hSame)
      exact h.valid_items hItems
    · exact absurd hRead unexpected_ne_ok
  valid_ofTree j xs hRead := by
    cases j with
    | array items => exact h.valid_mapM hRead
    | null | bool | int | float | string | object => cases hRead
  valid_absent _ hAbsent := by cases hAbsent

theorem Faithful.optional (h : f.Faithful levels valid)
    (hSome : ∀ x, valid x → f.toJson x ≠ .null) :
    f.optional.Faithful levels fun o => ∀ x ∈ o, valid x where
  read_write o hValid depth hDepth rest hRest := by
    cases o with
    | none => rfl
    | some x =>
      have hx : valid x := hValid x rfl
      have hRead := h.read_write x hx depth hDepth rest hRest
      obtain ⟨b, bytes, hBytes, -, hNull⟩ := exists_opening (h.plain x hx) rest
      have hSkip := skipSpace_writeOnto (h.plain x hx) rest
      simp only [Format.optional]
      rw [hSkip]
      split
      · rename_i hFirst
        rw [hBytes] at hFirst
        exact absurd (hNull (List.cons.inj hFirst).1) (hSome x hx)
      · rw [hRead]
        rfl
  plain o hValid := by
    cases o with
    | none => trivial
    | some x => exact h.plain x (hValid x rfl)
  valid_read depth input o rest hRead x hMem := by
    simp only [Format.optional] at hRead
    split at hRead
    · obtain ⟨_, -, hSame⟩ := map_eq_ok_iff.1 hRead
      obtain ⟨rfl, -⟩ := Prod.mk.inj hSame
      cases hMem
    · obtain ⟨⟨y, _⟩, hInner, hSame⟩ := map_eq_ok_iff.1 hRead
      obtain ⟨rfl, -⟩ := Prod.mk.inj hSame
      obtain rfl := Option.some.inj hMem
      exact h.valid_read _ _ _ _ hInner
  valid_ofTree j o hRead x hMem := by
    cases j with
    | null =>
      obtain rfl := Except.ok.inj hRead
      cases hMem
    | bool _ | int _ | float _ | string _ | array _ | object _ =>
      obtain ⟨y, hInner, rfl⟩ := map_eq_ok_iff.1 hRead
      obtain rfl := Option.some.inj hMem
      exact h.valid_ofTree _ _ hInner
  valid_absent o hAbsent x hMem := by
    obtain rfl := Option.some.inj hAbsent
    cases hMem

end Format

end Tenancy.Json
