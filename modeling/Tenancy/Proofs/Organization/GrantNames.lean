import Tenancy.Organization.Ownership
import Tenancy.Proofs.Store.Name
import Tenancy.Proofs.Text.Clip

/-!
# Names of grants

The grants of a resource are named for its collection and its name.  A name that is too long is cut,
and ends in digits of a digest instead of the suffix.

* `collection_eq_of_begins`: whatever is cut, the collection is told from the beginning.
* `isValidName_ownerName`: owner grants of resources with valid names have valid names.
* `ownerName_eq_iff`: which owner grants have one name.
* `owner_names_short_valid_distinct`: all of this, for every resource and suffix.
-/

namespace Tenancy

variable {collection other : Collection} {name otherName suffix natural : String}

/-! ## Digits of a digest -/

def IsHashDigit (c : Char) : Prop := ∃ n < 16, c = Uid.hexDigit n

theorem IsHashDigit.of_forall {P : Char → Prop} {c : Char} (h : IsHashDigit c)
    (hAll : ∀ n < 16, P (Uid.hexDigit n)) : P c := by
  obtain ⟨n, hLt, rfl⟩ := h
  exact hAll n hLt

theorem IsHashDigit.isNameEnd {c : Char} (h : IsHashDigit c) : isNameEnd c = true :=
  h.of_forall (P := (Tenancy.isNameEnd · = true)) (by decide)

theorem IsHashDigit.utf8Size {c : Char} (h : IsHashDigit c) : c.utf8Size = 1 :=
  h.of_forall (P := (·.utf8Size = 1)) (by decide)

theorem IsHashDigit.ne_r {c : Char} (h : IsHashDigit c) : c ≠ 'r' :=
  h.of_forall (P := (· ≠ 'r')) (by decide)

theorem isHashDigit_of_mem_byteDigits {b : UInt8} {c : Char} (hMem : c ∈ byteDigits b) :
    IsHashDigit c := by
  have hLt := b.toNat_lt
  rcases List.mem_pair.1 hMem with rfl | rfl
  · exact ⟨_, by omega, rfl⟩
  · exact ⟨_, by omega, rfl⟩

theorem isHashDigit_of_mem_nameHash {c : Char} (hMem : c ∈ (nameHash natural).toList) :
    IsHashDigit c := by
  rw [nameHash, String.toList_ofList] at hMem
  obtain ⟨b, -, hDigit⟩ := List.mem_flatMap.1 (List.mem_of_mem_take hMem)
  exact isHashDigit_of_mem_byteDigits hDigit

theorem length_nameHash (natural : String) : (nameHash natural).toList.length = hashLength := by
  have hDigest : (Digest.sha256 (utf8 natural)).length = 32 := by
    simp [Digest.sha256, Digest.wordBytes]
  have hDigits : ((Digest.sha256 (utf8 natural)).flatMap byteDigits).length = 64 := by
    simp [List.length_flatMap, byteDigits, hDigest]
  rw [nameHash, String.toList_ofList, List.length_take, hDigits]
  rfl

theorem utf8ByteSize_nameHash (natural : String) :
    (nameHash natural).utf8ByteSize = hashLength := by
  rw [← String.utf8Len_toList, utf8Len_of_forall_one fun c hMem =>
    (isHashDigit_of_mem_nameHash hMem).utf8Size, length_nameHash]

/-! ## Shortened names -/

theorem toList_shortenedName (natural : String) : (shortenedName natural).toList =
    (clipBytes (maxNameLength - hashLength - 1) natural).toList ++
      '-' :: (nameHash natural).toList := by
  simp [shortenedName, String.toList_append]

theorem utf8ByteSize_shortenedName (natural : String) :
    (shortenedName natural).utf8ByteSize ≤ maxNameLength := by
  have hFits := (isClip_clipBytes (maxNameLength - hashLength - 1) natural).fits
  rw [shortenedName, String.utf8ByteSize_append, String.utf8ByteSize_append, utf8ByteSize_nameHash]
  have hHyphen : "-".utf8ByteSize = 1 := by decide
  rw [hHyphen]
  rw [maxNameLength, hashLength] at *
  omega

theorem getLast?_shortenedName (natural : String) :
    ∃ c, (shortenedName natural).toList.getLast? = some c ∧ IsHashDigit c := by
  have hNotNil : (nameHash natural).toList ≠ [] := by
    rw [← List.length_pos_iff, length_nameHash]
    decide
  rw [toList_shortenedName, List.append_cons, List.getLast?_append_of_ne_nil _ hNotNil,
    List.getLast?_eq_some_getLast hNotNil]
  exact ⟨_, rfl, isHashDigit_of_mem_nameHash (List.getLast_mem hNotNil)⟩

theorem grantObjectName_of_fits
    (hFits : (naturalGrantName collection name suffix).utf8ByteSize ≤ maxNameLength) :
    grantObjectName collection name suffix = naturalGrantName collection name suffix :=
  if_pos hFits

theorem grantObjectName_of_long
    (hLong : maxNameLength < (naturalGrantName collection name suffix).utf8ByteSize) :
    grantObjectName collection name suffix =
      shortenedName (naturalGrantName collection name suffix) :=
  if_neg (Nat.not_le.2 hLong)

theorem utf8ByteSize_grantObjectName (collection : Collection) (name suffix : String) :
    (grantObjectName collection name suffix).utf8ByteSize ≤ maxNameLength := by
  rw [grantObjectName]
  split
  · assumption
  · exact utf8ByteSize_shortenedName _

/-! ## The parts of a name -/

theorem toList_naturalGrantName (collection : Collection) (name suffix : String) :
    (naturalGrantName collection name suffix).toList =
      collection.text.toList ++ '-' :: (name.toList ++ '-' :: suffix.toList) := by
  simp [naturalGrantName, String.toList_append]

/-- Collections have no hyphens, so the first hyphen ends the collection. -/
theorem collection_eq_of_begins {cs : List Char} (hBegins : collection.text.toList ++ ['-'] <+: cs)
    (hOther : other.text.toList ++ ['-'] <+: cs) : collection = other := by
  have hAll : ∀ c d : Collection, c.text.toList ++ ['-'] <+: d.text.toList ++ ['-'] → c = d := by
    intro c d
    cases c <;> cases d <;> decide
  rcases List.prefix_or_prefix_of_prefix hBegins hOther with h | h
  · exact hAll _ _ h
  · exact (hAll _ _ h).symm

theorem naturalGrantName_begins (collection : Collection) (name suffix : String) :
    collection.text.toList ++ ['-'] <+: (naturalGrantName collection name suffix).toList := by
  rw [toList_naturalGrantName]
  exact ⟨name.toList ++ '-' :: suffix.toList, by simp⟩

/-- No collection is so long that it is cut. -/
theorem clipBytes_natural_begins (collection : Collection) (name suffix : String) :
    collection.text.toList ++ ['-'] <+: (clipBytes (maxNameLength - hashLength - 1)
      (naturalGrantName collection name suffix)).toList := by
  have hPart : (collection.text ++ "-").toList = collection.text.toList ++ ['-'] :=
    String.toList_append
  rw [← hPart]
  refine (isClip_clipBytes _ _).longest _
    (hPart ▸ naturalGrantName_begins collection name suffix) ?_
  cases collection <;> decide

theorem shortenedName_begins (collection : Collection) (name suffix : String) :
    collection.text.toList ++ ['-'] <+:
      (shortenedName (naturalGrantName collection name suffix)).toList := by
  rw [toList_shortenedName]
  exact (clipBytes_natural_begins collection name suffix).trans (List.prefix_append _ _)

theorem getLast?_naturalGrantName (collection : Collection) (name : String) :
    (naturalGrantName collection name ownerSuffix).toList.getLast? = some 'r' := by
  have hParts : (naturalGrantName collection name ownerSuffix).toList =
      (collection.text.toList ++ '-' :: name.toList ++ ['-']) ++ ownerSuffix.toList := by
    simp [toList_naturalGrantName]
  rw [hParts, List.getLast?_append_of_ne_nil _ (by decide)]
  decide

/-- No shortened name is an owner grant's full name. -/
theorem naturalGrantName_ne_shortenedName (collection : Collection) (name natural : String) :
    naturalGrantName collection name ownerSuffix ≠ shortenedName natural := by
  intro hEq
  obtain ⟨c, hLast, hDigit⟩ := getLast?_shortenedName natural
  rw [← hEq, getLast?_naturalGrantName] at hLast
  exact hDigit.ne_r (Option.some.inj hLast).symm

theorem naturalGrantName_inj (hEq : naturalGrantName collection name suffix =
    naturalGrantName other otherName suffix) : collection = other ∧ name = otherName := by
  have hBegins := naturalGrantName_begins collection name suffix
  have hOther := naturalGrantName_begins other otherName suffix
  rw [← hEq] at hOther
  obtain rfl := collection_eq_of_begins hBegins hOther
  have hLists := congrArg String.toList hEq
  rw [toList_naturalGrantName, toList_naturalGrantName, List.append_cancel_left_eq,
    List.cons_inj_right, List.append_cancel_right_eq] at hLists
  exact ⟨rfl, String.toList_inj.1 hLists⟩

/-! ## Validity -/

theorem isNameChar_of_mem_natural (collection : Collection)
    (hChars : ∀ c ∈ name.toList, isNameChar c = true) :
    ∀ c ∈ (naturalGrantName collection name ownerSuffix).toList, isNameChar c = true := by
  have hCollection : collection.text.toList.all isNameChar = true := by
    cases collection <;> rfl
  have hSuffix : ownerSuffix.toList.all isNameChar = true := rfl
  simp only [toList_naturalGrantName, List.forall_mem_append, List.forall_mem_cons]
  exact ⟨List.all_eq_true.1 hCollection, rfl, hChars, rfl, List.all_eq_true.1 hSuffix⟩

theorem isNameChar_of_mem_shortenedName (hChars : ∀ c ∈ natural.toList, isNameChar c = true) :
    ∀ c ∈ (shortenedName natural).toList, isNameChar c = true := by
  simp only [toList_shortenedName, List.forall_mem_append, List.forall_mem_cons]
  refine ⟨fun c hMem => hChars c ((isClip_clipBytes _ _).begins.subset hMem), rfl, ?_⟩
  intro c hMem
  rw [isNameChar, (isHashDigit_of_mem_nameHash hMem).isNameEnd]
  rfl

/-- What begins like a collection begins with a letter. -/
theorem head?_of_begins {cs : List Char} (hBegins : collection.text.toList ++ ['-'] <+: cs) :
    cs.head?.any isNameEnd = true := by
  obtain ⟨rest, rfl⟩ := hBegins
  cases collection <;> rfl

/-- Owner grants of resources with valid names have valid names. -/
theorem isValidName_ownerName (hName : isValidName name = true) :
    isValidName (ownerName collection name) = true := by
  obtain ⟨-, hChars, -⟩ := isValidName_iff.1 hName
  have hNatural := isNameChar_of_mem_natural collection hChars
  refine isValidName_iff.2 ⟨utf8ByteSize_grantObjectName _ _ _, ?_⟩
  rw [bothEnds, Bool.and_eq_true]
  rcases Nat.lt_or_ge maxNameLength
    (naturalGrantName collection name ownerSuffix).utf8ByteSize with hLong | hFits
  · rw [ownerName, grantObjectName_of_long hLong]
    obtain ⟨c, hLast, hDigit⟩ := getLast?_shortenedName
      (naturalGrantName collection name ownerSuffix)
    refine ⟨isNameChar_of_mem_shortenedName hNatural,
      head?_of_begins (shortenedName_begins collection name ownerSuffix), ?_⟩
    rw [hLast]
    exact hDigit.isNameEnd
  · rw [ownerName, grantObjectName_of_fits hFits]
    refine ⟨hNatural, head?_of_begins (naturalGrantName_begins collection name ownerSuffix), ?_⟩
    rw [getLast?_naturalGrantName]
    decide

/-! ## Distinctness -/

structure ShortenedAlike (first second : String) : Prop where
  first_long : maxNameLength < first.utf8ByteSize
  second_long : maxNameLength < second.utf8ByteSize
  kept : clipBytes (maxNameLength - hashLength - 1) first =
    clipBytes (maxNameLength - hashLength - 1) second
  hash : nameHash first = nameHash second

/-- The digits of the digest are as many in every shortened name. -/
theorem shortenedName_eq_iff {first second : String} :
    shortenedName first = shortenedName second ↔
      clipBytes (maxNameLength - hashLength - 1) first =
        clipBytes (maxNameLength - hashLength - 1) second ∧ nameHash first = nameHash second := by
  refine ⟨fun hEq => ?_, fun ⟨hKept, hHash⟩ => by rw [shortenedName, shortenedName, hKept, hHash]⟩
  have hLists := congrArg String.toList hEq
  rw [toList_shortenedName, toList_shortenedName] at hLists
  obtain ⟨hKept, hRest⟩ := List.append_inj' hLists (by simp [length_nameHash])
  exact ⟨String.toList_inj.1 hKept, String.toList_inj.1 (List.cons_inj_right _ |>.1 hRest)⟩

/-- The collection can be read off, and a full name ends in a letter that no digest has. -/
theorem eq_or_shortenedAlike_of_ownerName_eq
    (hEq : ownerName collection name = ownerName other otherName) :
    collection = other ∧ (name = otherName ∨
      ShortenedAlike (naturalGrantName collection name ownerSuffix)
        (naturalGrantName other otherName ownerSuffix)) := by
  rw [ownerName, ownerName] at hEq
  rcases Nat.lt_or_ge maxNameLength
    (naturalGrantName collection name ownerSuffix).utf8ByteSize with hLong | hFits <;>
  rcases Nat.lt_or_ge maxNameLength
    (naturalGrantName other otherName ownerSuffix).utf8ByteSize with hOtherLong | hOtherFits
  · rw [grantObjectName_of_long hLong, grantObjectName_of_long hOtherLong] at hEq
    obtain ⟨hKept, hHash⟩ := shortenedName_eq_iff.1 hEq
    have hBegins := shortenedName_begins collection name ownerSuffix
    have hOther := shortenedName_begins other otherName ownerSuffix
    rw [← hEq] at hOther
    exact ⟨collection_eq_of_begins hBegins hOther, .inr ⟨hLong, hOtherLong, hKept, hHash⟩⟩
  · rw [grantObjectName_of_long hLong, grantObjectName_of_fits hOtherFits] at hEq
    exact absurd hEq.symm (naturalGrantName_ne_shortenedName _ _ _)
  · rw [grantObjectName_of_fits hFits, grantObjectName_of_long hOtherLong] at hEq
    exact absurd hEq (naturalGrantName_ne_shortenedName _ _ _)
  · rw [grantObjectName_of_fits hFits, grantObjectName_of_fits hOtherFits] at hEq
    obtain ⟨hCollection, hName⟩ := naturalGrantName_inj hEq
    exact ⟨hCollection, .inl hName⟩

/-- Two owner grants have one name if they are of one resource, or of one collection and their
full names are shortened to the same. -/
theorem ownerName_eq_iff : ownerName collection name = ownerName other otherName ↔
    collection = other ∧ (name = otherName ∨
      ShortenedAlike (naturalGrantName collection name ownerSuffix)
        (naturalGrantName other otherName ownerSuffix)) := by
  refine ⟨eq_or_shortenedAlike_of_ownerName_eq, ?_⟩
  rintro ⟨rfl, rfl | hAlike⟩
  · rfl
  · rw [ownerName, ownerName, grantObjectName_of_long hAlike.first_long,
      grantObjectName_of_long hAlike.second_long]
    exact shortenedName_eq_iff.2 ⟨hAlike.kept, hAlike.hash⟩

/-- **Names of grants are short, valid and distinct**: no name of a grant is longer than a name may
be; it is the full name, or what fits of the full name with digits of its digest; the owner grants
of a resource with a valid name have a valid name; and two resources share the name of their owner
grants only if they are one, or of one collection and shortened to the same. -/
theorem owner_names_short_valid_distinct :
    (∀ (collection : Collection) (name suffix : String),
      (grantObjectName collection name suffix).utf8ByteSize ≤ maxNameLength ∧
      ((naturalGrantName collection name suffix).utf8ByteSize ≤ maxNameLength ∧
          grantObjectName collection name suffix = naturalGrantName collection name suffix ∨
        maxNameLength < (naturalGrantName collection name suffix).utf8ByteSize ∧
          ∃ kept : String,
            IsClip (maxNameLength - hashLength - 1) (naturalGrantName collection name suffix) kept ∧
            grantObjectName collection name suffix =
              kept ++ "-" ++ nameHash (naturalGrantName collection name suffix))) ∧
    (∀ (collection : Collection) (name : String), isValidName name = true →
      isValidName (ownerName collection name) = true) ∧
    ∀ (collection other : Collection) (name otherName : String),
      ownerName collection name = ownerName other otherName ↔
        collection = other ∧ (name = otherName ∨
          ShortenedAlike (naturalGrantName collection name ownerSuffix)
            (naturalGrantName other otherName ownerSuffix)) := by
  refine ⟨fun collection name suffix => ⟨utf8ByteSize_grantObjectName _ _ _, ?_⟩,
    fun _ _ => isValidName_ownerName, fun _ _ _ _ => ownerName_eq_iff⟩
  rcases Nat.lt_or_ge maxNameLength
    (naturalGrantName collection name suffix).utf8ByteSize with hLong | hFits
  · exact .inr ⟨hLong, _, isClip_clipBytes _ _, grantObjectName_of_long hLong⟩
  · exact .inl ⟨hFits, grantObjectName_of_fits hFits⟩

/-- A name of 250 letters is valid but leaves no room for the suffix. -/
theorem owner_names_short_valid_distinct_long :
    let name := String.ofList (List.replicate 250 'a')
    isValidName name = true ∧
    maxNameLength < (naturalGrantName .organization name ownerSuffix).utf8ByteSize ∧
    isValidName (ownerName .organization name) = true := by
  intro name
  have hSize : name.utf8ByteSize = 250 := by
    rw [String.utf8ByteSize_ofList]
    decide +kernel
  have hValid : isValidName name = true := by
    rw [isValidName_iff, hSize, String.toList_ofList]
    refine ⟨by decide, fun c hMem => ?_, rfl⟩
    rw [List.eq_of_mem_replicate hMem]
    rfl
  refine ⟨hValid, ?_, owner_names_short_valid_distinct.2.1 .organization name hValid⟩
  rw [naturalGrantName, String.utf8ByteSize_append, String.utf8ByteSize_append,
    String.utf8ByteSize_append, String.utf8ByteSize_append, hSize]
  decide

end Tenancy
