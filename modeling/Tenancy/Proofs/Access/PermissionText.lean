import Mathlib.Data.List.TakeWhile
import Tenancy.Proofs.Access.Coverage

/-!
# Permissions and their texts

The text of a permission has a colon between the parts.  Collections and verbs have none in their
names, so the text can be cut at its first two colons, whatever the name behind them holds.  More
texts are read than written: collections and verbs have several spellings.

* `cutAtColon_eq`: where a text is cut.
* `Permission.parse?_text`: a permission is read back from its text.
* `Permission.parse?_eq_some_iff`: the texts that are read, and as what.
* `PermissionSet.ofTexts_eq`: a set is read back from the texts of its members, among others that
  write nothing.
-/

namespace Tenancy

/-! ## Cutting at colons -/

def beforeColon (s : String) : String := String.ofList (s.toList.takeWhile (· ≠ ':'))

def afterColon (s : String) : String := String.ofList (s.toList.dropWhile (· ≠ ':')).tail

theorem cutAtColon_eq (cs : List Char) : cutAtColon cs =
    (cs.takeWhile (· ≠ ':'), if ':' ∈ cs then some (cs.dropWhile (· ≠ ':')).tail else none) := by
  induction cs with
  | nil => rfl
  | cons c cs ih =>
    by_cases hColon : c = ':'
    · simp [cutAtColon, hColon]
    · simp [cutAtColon, hColon, ih, Ne.symm hColon]

theorem cutAtColon_append {before : List Char} (hBefore : ':' ∉ before) (after : List Char) :
    cutAtColon (before ++ ':' :: after) = (before, some after) := by
  have hAll : ∀ c ∈ before, decide (c ≠ ':') = true := fun c hMem =>
    decide_eq_true (List.forall_mem_ne'.2 hBefore c hMem)
  rw [cutAtColon_eq, List.takeWhile_append_of_pos hAll, List.dropWhile_append_of_pos hAll]
  simp

theorem cutAtColon_of_not_mem {cs : List Char} (hNone : ':' ∉ cs) : cutAtColon cs = (cs, none) := by
  have hAll : ∀ c ∈ cs, decide (c ≠ ':') = true := fun c hMem =>
    decide_eq_true (List.forall_mem_ne'.2 hNone c hMem)
  rw [cutAtColon_eq, List.takeWhile_eq_self_iff.2 hAll, if_neg hNone]

theorem Collection.not_mem_text (c : Collection) : ':' ∉ c.text.toList := by cases c <;> decide

theorem Verb.not_mem_text (v : Verb) : ':' ∉ v.text.toList := by cases v <;> decide

@[simp]
theorem Collection.parse?_text (c : Collection) : Collection.parse? c.text = some c := by
  cases c <;> decide

@[simp]
theorem Verb.parse?_text (v : Verb) : Verb.parse? v.text = some v := by cases v <;> decide

/-! ## Permissions -/

namespace Permission

theorem toList_text (p : Permission) : p.text.toList = p.collection.text.toList ++
    ':' :: (p.verb.text.toList ++ (p.name.map fun name => ':' :: name.toList).getD []) := by
  cases hName : p.name <;> simp [text, hName, String.toList_append]

/-- A permission is read back from its text. -/
theorem parse?_text (p : Permission) : parse? p.text = some p := by
  obtain ⟨collection, verb, name⟩ := p
  rw [parse?, toList_text, cutAtColon_append collection.not_mem_text]
  cases name with
  | none => simp [cutAtColon_of_not_mem verb.not_mem_text]
  | some name => simp [cutAtColon_append verb.not_mem_text]

theorem text_injective : Function.Injective text := fun p q hSame =>
  Option.some.inj (by rw [← parse?_text p, hSame, parse?_text])

/-- The text writes the permission: it has a colon, before which the collection is spelled; then,
up to another colon or the end, the verb; and the name is all that follows the second colon. -/
structure IsWritten (s : String) (p : Permission) : Prop where
  colon : ':' ∈ s.toList
  collection : Collection.parse? (beforeColon s) = some p.collection
  verb : Verb.parse? (beforeColon (afterColon s)) = some p.verb
  name : p.name =
    if ':' ∈ (afterColon s).toList then some (afterColon (afterColon s)) else none

theorem parse?_of_colon {s : String} (hColon : ':' ∈ s.toList) : parse? s = (do
    let collection ← Collection.parse? (beforeColon s)
    let verb ← Verb.parse? (beforeColon (afterColon s))
    some ⟨collection, verb,
      if ':' ∈ (afterColon s).toList then some (afterColon (afterColon s)) else none⟩) := by
  simp only [parse?, cutAtColon_eq, if_pos hColon, beforeColon, afterColon, String.toList_ofList,
    apply_ite (Option.map String.ofList), Option.map_some, Option.map_none]

theorem parse?_eq_some_iff {s : String} {p : Permission} :
    parse? s = some p ↔ IsWritten s p := by
  by_cases hColon : ':' ∈ s.toList
  · rw [parse?_of_colon hColon]
    simp only [Option.bind_eq_bind, Option.bind_eq_some_iff, Option.some_inj]
    constructor
    · rintro ⟨collection, hCollection, verb, hVerb, rfl⟩
      exact ⟨hColon, hCollection, hVerb, rfl⟩
    · intro h
      exact ⟨p.collection, h.collection, p.verb, h.verb, by rw [← h.name]⟩
  · rw [parse?, cutAtColon_of_not_mem hColon]
    exact ⟨nofun, fun h => absurd h.colon hColon⟩

/-- What the permission is for and its verb decide whether a text is read, whatever the name. -/
theorem isSome_parse?_iff {s : String} : (parse? s).isSome ↔ ':' ∈ s.toList ∧
    (Collection.parse? (beforeColon s)).isSome ∧
      (Verb.parse? (beforeColon (afterColon s))).isSome := by
  simp only [Option.isSome_iff_exists, parse?_eq_some_iff]
  constructor
  · rintro ⟨p, h⟩
    exact ⟨h.colon, ⟨p.collection, h.collection⟩, p.verb, h.verb⟩
  · rintro ⟨hColon, ⟨collection, hCollection⟩, verb, hVerb⟩
    exact ⟨⟨collection, verb, _⟩, hColon, hCollection, hVerb, rfl⟩

end Permission

/-! ## Sets -/

/-- A set is read back from texts among which are those of all its members, in any order, and
otherwise only such as write no permission. -/
theorem PermissionSet.ofTexts_eq {s : PermissionSet} {texts : List String}
    (hAll : ∀ p ∈ s.toList, p.text ∈ texts)
    (hOnly : ∀ t ∈ texts, (∃ p ∈ s.toList, p.text = t) ∨ Permission.parse? t = none) :
    ofTexts texts = s := by
  refine ofList_eq fun p => ?_
  rw [List.mem_filterMap]
  constructor
  · rintro ⟨t, hMem, hRead⟩
    rcases hOnly t hMem with ⟨q, hMember, rfl⟩ | hNone
    · rw [Permission.parse?_text] at hRead
      exact Option.some.inj hRead ▸ hMember
    · rw [hNone] at hRead
      cases hRead
  · exact fun hMember => ⟨p.text, hAll p hMember, p.parse?_text⟩

/-- **Permissions are read back from their texts**, one by one and as sets; and a text is read just
if its parts are, with the name that is behind the second colon. -/
theorem permission_texts_read_back :
    (∀ p : Permission, Permission.parse? p.text = some p) ∧
      Function.Injective Permission.text ∧
      (∀ s p, Permission.parse? s = some p → Permission.parse? p.text = some p) ∧
      (∀ s, (Permission.parse? s).isSome ↔ ':' ∈ s.toList ∧
        (Collection.parse? (beforeColon s)).isSome ∧
          (Verb.parse? (beforeColon (afterColon s))).isSome) ∧
      (∀ s p, Permission.parse? s = some p ↔ Permission.IsWritten s p) ∧
      ∀ (s : PermissionSet) (texts : List String), (∀ p ∈ s.toList, p.text ∈ texts) →
        (∀ t ∈ texts, (∃ p ∈ s.toList, p.text = t) ∨ Permission.parse? t = none) →
          PermissionSet.ofTexts texts = s :=
  ⟨Permission.parse?_text, Permission.text_injective, fun _ p _ => p.parse?_text,
    fun _ => Permission.isSome_parse?_iff, fun _ _ => Permission.parse?_eq_some_iff,
    fun _ _ => PermissionSet.ofTexts_eq⟩

/-- Colons in the name, an empty name, other spellings, and texts that write nothing. -/
theorem permission_texts_read_back_colons :
    let first := Permission.named .billingAccount .update "acme:primary"
    let second := Permission.named .role .all ""
    first.text = "billingaccounts:update:acme:primary" ∧ second.text = "roles:*:" ∧
      Permission.IsWritten "BillingAccount:Patch:acme:primary" first ∧
      (Permission.parse? "projects:get").isSome = false ∧
      PermissionSet.ofTexts [second.text, "projects:get", first.text, "roles"] =
        .ofList [first, second] := by
  intro first second
  obtain ⟨-, -, -, hSome, hReads, hSets⟩ := permission_texts_read_back
  refine ⟨by decide, by decide, (hReads _ first).1 (by decide), ?_, ?_⟩
  · rw [← Bool.not_eq_true, hSome]
    decide
  · refine hSets (.ofList [first, second]) _ ?_ ?_ <;> decide

end Tenancy
