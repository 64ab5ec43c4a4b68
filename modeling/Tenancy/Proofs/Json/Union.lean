import Mathlib.Data.List.FinRange
import Tenancy.Proofs.Json.Record

/-!
# Faithful unions

A union is faithful if the contents of its variants are, and if each value is written under the name
of the first variant with this name.

* `Format.union_faithful`, `Format.choice_faithful`: the name alone, or as the key of the content.
* `Format.adjacent_faithful`: the name beside the content.
-/

namespace Tenancy.Json.Format

variable {α β : Type} {levels : Nat} {valid : α → Prop}

/-! ## Variants -/

namespace Variant

inductive Sound (valid : α → Prop) : Variant α → Prop
  | bare {name : String} {x : α} (hValid : valid x) : Sound valid (.bare name x)
  | carrying {β : Type} {name : String} {content : Format β} {wrap : β → α} {levels : Nat}
      {validContent : β → Prop} (hContent : content.Faithful levels validContent)
      (hWrap : ∀ y, validContent y → valid (wrap y)) : Sound valid (.carrying name content wrap)

/-- The content of a value of this variant is written as `j`. -/
inductive Contains (levels : Nat) : Variant α → Json → α → Prop
  | carrying {β : Type} {name : String} {content : Format β} {wrap : β → α}
      {validContent : β → Prop} (hContent : content.Faithful levels validContent) {y : β}
      (hValid : validContent y) :
      Contains levels (.carrying name content wrap) (content.toJson y) (wrap y)

inductive Writes : Nat → Variant α → Json → α → Prop
  | bare {levels : Nat} {name : String} {x : α} : Writes levels (.bare name x) (.string name) x
  | carrying {levels : Nat} {v : Variant α} {j : Json} {x : α} (hContent : v.Contains levels j x) :
      Writes (levels + 1) v (.object [(v.name, j)]) x

variable {v : Variant α} {j : Json} {x : α}

theorem Contains.readContent (h : v.Contains levels j x) {depth : Nat} (hDepth : levels < depth)
    {rest : Bytes} (hRest : IsDelimited rest) :
    v.readContent depth (writeOnto j rest) = .ok (x, rest) := by
  cases h with
  | carrying hContent hValid =>
    rw [Variant.readContent, hContent.read_write _ hValid depth hDepth rest hRest]
    rfl

theorem Sound.valid_alone (h : v.Sound valid) (hRead : v.alone = .ok x) : valid x := by
  cases h with
  | bare hValid =>
    obtain rfl := Except.ok.inj hRead
    exact hValid
  | carrying => cases hRead

theorem Sound.valid_readContent (h : v.Sound valid) {depth : Nat} {input rest : Bytes}
    (hRead : v.readContent depth input = .ok (x, rest)) : valid x := by
  cases h with
  | bare hValid =>
    obtain ⟨_, -, hSame⟩ := map_eq_ok_iff.1 hRead
    obtain ⟨rfl, -⟩ := Prod.mk.inj hSame
    exact hValid
  | carrying hContent hWrap =>
    obtain ⟨⟨y, _⟩, hValue, hSame⟩ := map_eq_ok_iff.1 hRead
    obtain ⟨rfl, -⟩ := Prod.mk.inj hSame
    exact hWrap y (hContent.valid_read _ _ _ _ hValue)

theorem Sound.valid_ofContent (h : v.Sound valid) (hRead : v.ofContent j = .ok x) : valid x := by
  cases h with
  | bare hValid =>
    obtain ⟨_, -, rfl⟩ := map_eq_ok_iff.1 hRead
    exact hValid
  | carrying hContent hWrap =>
    obtain ⟨y, hValue, rfl⟩ := map_eq_ok_iff.1 hRead
    exact hWrap y (hContent.valid_ofTree _ _ hValue)

end Variant

theorem withVariant_eq_ok {γ : Type} {variants : List (Variant α)} {name : String}
    {use : Variant α → Except Fault γ} {outcome : γ}
    (hRead : withVariant variants name use = .ok outcome) :
    ∃ v ∈ variants, use v = .ok outcome := by
  rw [withVariant] at hRead
  split at hRead
  · rename_i v hFind
    exact ⟨v, List.mem_of_find?_eq_some hFind, hRead⟩
  · cases hRead

/-! ## Names as keys -/

section

variable {variants : List (Variant α)} {toJson : α → Json}

theorem union_read_name (depth : Nat) (rest : Bytes) :
    (union variants toJson).read depth (34 :: rest) = (do
      let (name, rest) ← readString rest
      .ok (← withVariant variants name Variant.alone, rest)) := rfl

theorem union_read_object (depth : Nat) (rest : Bytes) :
    (union variants toJson).read depth (123 :: rest) = (do
      let depth ← descend depth
      let (name, rest) ← readVariantKey rest
      let (x, rest) ← withVariant variants name fun v => do
        v.readContent depth (← readColon rest)
      match skipSpace rest with
      | [] => .error .endInObject
      | b :: rest => if b = 125 then .ok (x, rest) else .error .expectedValue) := rfl

theorem union_read_written {v : Variant α} {j : Json} {x : α} {depth : Nat}
    (hDepth : levels < depth) (hFind : variants.find? (fun w => w.name = v.name) = some v)
    (hWritten : v.Writes levels j x) (rest : Bytes) :
    (union variants toJson).read depth (writeOnto j rest) = .ok (x, rest) := by
  have hVariant : ∀ {γ : Type} (use : Variant α → Except Fault γ),
      withVariant variants v.name use = use v := by
    intro γ use
    rw [withVariant, hFind]
  cases hWritten with
  | @bare levels name x =>
    rw [writeOnto, writeString, union_read_name, readString_writeEscaped, bind_ok]
    have hAlone := hVariant Variant.alone
    dsimp only [Variant.name] at hAlone ⊢
    rw [hAlone]
    rfl
  | @carrying levels v j x hContent =>
    have hDescend : descend depth = .ok (depth - 1) := if_neg (by omega)
    have hInside : levels < depth - 1 := by omega
    have hKey : readVariantKey (membersText true [(v.name, j)] (125 :: rest)) =
        .ok (v.name, 58 :: writeOnto j (125 :: rest)) :=
      readString_writeEscaped v.name (58 :: writeOnto j (125 :: rest))
    have hColon : readColon (58 :: writeOnto j (125 :: rest)) =
        .ok (writeOnto j (125 :: rest)) := rfl
    rw [writeOnto_object, union_read_object, hDescend, bind_ok, hKey, bind_ok]
    dsimp only
    rw [hVariant, hColon, bind_ok,
      hContent.readContent hInside (isDelimited_cons (.inr (.inr rfl))), bind_ok]
    rfl

theorem valid_union_read (hSound : ∀ v ∈ variants, v.Sound valid) {depth : Nat} {input rest : Bytes}
    {x : α} (hRead : (union variants toJson).read depth input = .ok (x, rest)) : valid x := by
  simp only [union] at hRead
  split at hRead
  · cases hRead
  · obtain ⟨⟨name, rest'⟩, -, hRead⟩ := bind_eq_ok_iff.1 hRead
    obtain ⟨y, hVariant, hSame⟩ := bind_eq_ok_iff.1 hRead
    obtain ⟨rfl, -⟩ := Prod.mk.inj (Except.ok.inj hSame)
    obtain ⟨v, hMem, hAlone⟩ := withVariant_eq_ok hVariant
    exact (hSound v hMem).valid_alone hAlone
  · obtain ⟨_, -, hRead⟩ := bind_eq_ok_iff.1 hRead
    obtain ⟨⟨name, _⟩, -, hRead⟩ := bind_eq_ok_iff.1 hRead
    obtain ⟨⟨y, _⟩, hVariant, hRead⟩ := bind_eq_ok_iff.1 hRead
    obtain ⟨v, hMem, hUse⟩ := withVariant_eq_ok hVariant
    obtain ⟨_, -, hContent⟩ := bind_eq_ok_iff.1 hUse
    dsimp only at hRead
    split at hRead
    · cases hRead
    split at hRead
    · obtain ⟨rfl, -⟩ := Prod.mk.inj (Except.ok.inj hRead)
      exact (hSound v hMem).valid_readContent hContent
    · cases hRead
  · cases hRead

theorem valid_union_ofTree (hSound : ∀ v ∈ variants, v.Sound valid) {j : Json} {x : α}
    (hRead : (union variants toJson).ofTree j = .ok x) : valid x := by
  simp only [union] at hRead
  split at hRead
  · obtain ⟨v, hMem, hAlone⟩ := withVariant_eq_ok hRead
    exact (hSound v hMem).valid_alone hAlone
  · obtain ⟨v, hMem, hContent⟩ := withVariant_eq_ok hRead
    exact (hSound v hMem).valid_ofContent hContent
  · cases hRead
  · cases hRead

theorem union_faithful (hSound : ∀ v ∈ variants, v.Sound valid)
    (hWrites : ∀ x, valid x → ∃ v, variants.find? (fun w => w.name = v.name) = some v ∧
      v.Writes levels (toJson x) x) : (union variants toJson).Faithful levels valid where
  read_write x hValid depth hDepth rest _ := by
    obtain ⟨v, hFind, hWritten⟩ := hWrites x hValid
    exact union_read_written hDepth hFind hWritten rest
  plain x hValid := by
    obtain ⟨v, -, hWritten⟩ := hWrites x hValid
    change IsPlain (toJson x)
    generalize toJson x = j at hWritten
    cases hWritten <;> trivial
  valid_read _ _ _ _ hRead := valid_union_read hSound hRead
  valid_ofTree _ _ hRead := valid_union_ofTree hSound hRead
  valid_absent _ hAbsent := by cases hAbsent

end

/-- A type whose values are all bare names is faithful if each name is that of one value. -/
theorem choice_faithful {values : List α} {name : α → String}
    (hFind : ∀ x, values.find? (fun y => name y = name x) = some x) :
    (choice values name).Faithful levels fun _ => True := by
  refine union_faithful (fun v hMem => ?_) fun x _ => ⟨.bare (name x) x, ?_, .bare⟩
  · obtain ⟨x, -, rfl⟩ := List.mem_map.1 hMem
    exact .bare trivial
  · rw [List.find?_map]
    change (values.find? fun y => name y = name x).map _ = _
    rw [hFind]
    rfl

/-! ## Names beside their content -/

section

variable {tag content : String} {variants : List (Variant α)} {toJson : α → Json}

/-- The names of variants, if they differ, as a type of their own. -/
theorem tags_faithful (hNames : (variants.map Variant.name).Nodup) :
    (choice (List.finRange variants.length) fun i => (variants.get i).name).Faithful levels
      fun _ => True := by
  refine choice_faithful fun i => ?_
  cases hFind : (List.finRange variants.length).find? fun k =>
      (variants.get k).name = (variants.get i).name with
  | none =>
    have hNone := List.find?_eq_none.1 hFind i (List.mem_finRange i)
    simp at hNone
  | some k =>
    have hSame : (variants.get k).name = (variants.get i).name := by
      simpa using List.find?_some hFind
    have hLength : (variants.map Variant.name).length = variants.length := List.length_map _
    have hCast : k.cast hLength.symm = i.cast hLength.symm :=
      List.nodup_iff_injective_getElem.1 hNames (by simpa using hSame)
    exact congrArg some (Fin.cast_injective _ hCast)

theorem nextOfTwo_tag (fuel : Nat) (first : Bool) (j : Json) (members : List (String × Json))
    (rest : Bytes) :
    nextOfTwo tag content (fuel + 1) first (membersText first ((tag, j) :: members) rest) =
      .ok (some (true, 58 :: writeOnto j (writeMembers members rest))) := by
  rw [nextOfTwo, nextKey_membersText, bind_ok]
  dsimp only
  rw [if_pos rfl]

theorem nextOfTwo_content (hDiffer : content ≠ tag) (fuel : Nat) (first : Bool) (j : Json)
    (members : List (String × Json)) (rest : Bytes) :
    nextOfTwo tag content (fuel + 1) first (membersText first ((content, j) :: members) rest) =
      .ok (some (false, 58 :: writeOnto j (writeMembers members rest))) := by
  rw [nextOfTwo, nextKey_membersText, bind_ok]
  dsimp only
  rw [if_neg hDiffer, if_pos rfl]

theorem adjacent_read_written {name : String} (hNames : (variants.map Variant.name).Nodup)
    (hDiffer : content ≠ tag) {i : Fin variants.length} {j : Json} {x : α} {depth : Nat}
    (hDepth : levels + 1 < depth) (hContent : (variants.get i).Contains levels j x) (rest : Bytes) :
    (adjacent name tag content variants toJson).read depth
      (writeOnto (.object [(tag, .string (variants.get i).name), (content, j)]) rest) =
        .ok (x, rest) := by
  have hDescend : descend depth = .ok (depth - 1) := if_neg (by omega)
  have hInside : levels < depth - 1 := by omega
  have hTag := (tags_faithful hNames).read_write i trivial (depth - 1) hInside
    (writeMembers [(content, j)] (125 :: rest)) (isDelimited_writeMembers _ rest)
  have hValue : (variants[i]).readContent (depth - 1)
      (writeOnto j (writeMembers [] (125 :: rest))) = .ok (x, writeMembers [] (125 :: rest)) :=
    hContent.readContent hInside (isDelimited_writeMembers [] rest)
  rw [writeOnto_object]
  simp only [adjacent]
  rw [skipSpace_of_not_space (by decide)]
  split
  · rename_i hHead
    exact absurd (List.cons.inj hHead).1 (by decide)
  · rename_i rest' hHead
    obtain rfl := (List.cons.inj hHead).2
    rw [hDescend, bind_ok, nextOfTwo_tag, bind_ok]
    have hColon : ∀ after, readColon (58 :: after) = .ok after := fun _ => rfl
    have hNext : ∀ fuel, nextOfTwo tag content (fuel + 1) false
        (writeMembers [(content, j)] (125 :: rest)) =
          .ok (some (false, 58 :: writeOnto j (writeMembers [] (125 :: rest)))) :=
      fun fuel => nextOfTwo_content hDiffer fuel false j [] (125 :: rest)
    have hTag' : (choice (List.finRange variants.length) fun i => variants[i].name).read
        (depth - 1) (writeOnto (.string (variants.get i).name)
          (writeMembers [(content, j)] (125 :: rest))) =
          .ok (i, writeMembers [(content, j)] (125 :: rest)) := hTag
    dsimp only
    rw [hColon, bind_ok, hTag', bind_ok]
    dsimp only
    rw [hNext, bind_ok]
    dsimp only
    rw [hColon, bind_ok, hValue, bind_ok]
    rfl
  · rename_i hOther
    exact absurd rfl (hOther _)

theorem valid_adjacent_read {name : String} (hSound : ∀ v ∈ variants, v.Sound valid) {depth : Nat}
    {input rest : Bytes} {x : α}
    (hRead : (adjacent name tag content variants toJson).read depth input = .ok (x, rest)) :
    valid x := by
  have hVariant : ∀ i : Fin variants.length, (variants[i]).Sound valid := fun i =>
    hSound _ (List.getElem_mem _)
  simp only [adjacent] at hRead
  split at hRead
  · obtain ⟨_, -, hRead⟩ := bind_eq_ok_iff.1 hRead
    obtain ⟨first, -, hRead⟩ := bind_eq_ok_iff.1 hRead
    cases first with
    | none => cases hRead
    | some _ =>
      obtain ⟨⟨i, _⟩, -, hRead⟩ := bind_eq_ok_iff.1 hRead
      obtain ⟨second, -, hRead⟩ := bind_eq_ok_iff.1 hRead
      cases second with
      | none => cases hRead
      | some _ =>
        obtain ⟨⟨y, _⟩, hContent, hRead⟩ := bind_eq_ok_iff.1 hRead
        obtain ⟨_, -, hSame⟩ := bind_eq_ok_iff.1 hRead
        obtain ⟨rfl, -⟩ := Prod.mk.inj (Except.ok.inj hSame)
        exact (hVariant i).valid_readContent hContent
  · obtain ⟨_, -, hRead⟩ := bind_eq_ok_iff.1 hRead
    obtain ⟨first, -, hRead⟩ := bind_eq_ok_iff.1 hRead
    rcases first with _ | ⟨hasTag, _⟩
    · cases hRead
    cases hasTag with
    | true =>
      obtain ⟨_, -, hRead⟩ := bind_eq_ok_iff.1 hRead
      obtain ⟨⟨i, _⟩, -, hRead⟩ := bind_eq_ok_iff.1 hRead
      obtain ⟨second, -, hRead⟩ := bind_eq_ok_iff.1 hRead
      rcases second with _ | ⟨_ | _, _⟩
      · cases hRead
      · obtain ⟨_, -, hRead⟩ := bind_eq_ok_iff.1 hRead
        obtain ⟨⟨y, _⟩, hContent, hRead⟩ := bind_eq_ok_iff.1 hRead
        obtain ⟨_, -, hSame⟩ := bind_eq_ok_iff.1 hRead
        obtain ⟨rfl, -⟩ := Prod.mk.inj (Except.ok.inj hSame)
        exact (hVariant i).valid_readContent hContent
      · cases hRead
    | false =>
      -- The content is kept as a tree until its tag is known.
      obtain ⟨_, -, hRead⟩ := bind_eq_ok_iff.1 hRead
      obtain ⟨⟨tree, _⟩, -, hRead⟩ := bind_eq_ok_iff.1 hRead
      obtain ⟨second, -, hRead⟩ := bind_eq_ok_iff.1 hRead
      rcases second with _ | ⟨_ | _, _⟩
      · cases hRead
      · cases hRead
      · obtain ⟨_, -, hRead⟩ := bind_eq_ok_iff.1 hRead
        obtain ⟨⟨i, _⟩, -, hRead⟩ := bind_eq_ok_iff.1 hRead
        obtain ⟨y, hContent, hRead⟩ := bind_eq_ok_iff.1 hRead
        obtain ⟨_, -, hSame⟩ := bind_eq_ok_iff.1 hRead
        obtain ⟨rfl, -⟩ := Prod.mk.inj (Except.ok.inj hSame)
        exact (hVariant i).valid_ofContent hContent
  · exact absurd hRead unexpected_ne_ok

theorem valid_adjacent_ofTree {name : String} (hSound : ∀ v ∈ variants, v.Sound valid) {j : Json}
    {x : α} (hRead : (adjacent name tag content variants toJson).ofTree j = .ok x) : valid x := by
  have hVariant : ∀ i : Fin variants.length, (variants[i]).Sound valid := fun i =>
    hSound _ (List.getElem_mem _)
  simp only [adjacent] at hRead
  split at hRead
  · split at hRead
    · cases hRead
    · obtain ⟨i, -, hContent⟩ := bind_eq_ok_iff.1 hRead
      exact (hVariant i).valid_ofContent hContent
    · obtain ⟨_, -, hMissing⟩ := bind_eq_ok_iff.1 hRead
      cases hMissing
  · obtain ⟨i, -, hContent⟩ := bind_eq_ok_iff.1 hRead
    exact (hVariant i).valid_ofContent hContent
  · cases hRead
  · cases hRead

theorem adjacent_faithful {name : String} (hNames : (variants.map Variant.name).Nodup)
    (hDiffer : content ≠ tag) (hSound : ∀ v ∈ variants, v.Sound valid)
    (hWrites : ∀ x, valid x → ∃ (i : Fin variants.length) (j : Json),
      toJson x = .object [(tag, .string (variants.get i).name), (content, j)] ∧
        (variants.get i).Contains levels j x) :
    (adjacent name tag content variants toJson).Faithful (levels + 1) valid where
  read_write x hValid depth hDepth rest _ := by
    obtain ⟨i, j, hForm, hContent⟩ := hWrites x hValid
    change (adjacent name tag content variants toJson).read depth (writeOnto (toJson x) rest) = _
    rw [hForm]
    exact adjacent_read_written hNames hDiffer hDepth hContent rest
  plain x hValid := by
    obtain ⟨i, j, hForm, -⟩ := hWrites x hValid
    change IsPlain (toJson x)
    rw [hForm]
    trivial
  valid_read _ _ _ _ hRead := valid_adjacent_read hSound hRead
  valid_ofTree _ _ hRead := valid_adjacent_ofTree hSound hRead
  valid_absent _ hAbsent := by cases hAbsent

end

end Tenancy.Json.Format
