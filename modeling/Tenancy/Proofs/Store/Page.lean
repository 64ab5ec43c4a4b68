import Tenancy.Proofs.Store.BlobCalls
import Tenancy.Proofs.Store.Replay
import Tenancy.Proofs.Store.Token

/-!
# Pages

A page request takes the first entries above the name of its token and reads them; if entries
remain, the page ends with the token of the last one taken.

* `IsPage`: what is on the page that a request gets.
* `BlobStore.list_isPage`: every request with the token of a name, or with none, gets its page.
* `BlobStore.list_of_no_token`: any other request is refused.
-/

namespace Tenancy

open KeyOrder (before)

variable {α β : Type}

theorem mapM_of_forall_ok {ε : Type} {f : α → Except ε β} {l : List α}
    (hOk : ∀ a ∈ l, ∃ b, f a = .ok b) : ∃ bs, l.mapM f = .ok bs ∧ bs.map .ok = l.map f := by
  induction l with
  | nil => exact ⟨[], rfl, rfl⟩
  | cons a l ih =>
    obtain ⟨b, hb⟩ := hOk a List.mem_cons_self
    obtain ⟨bs, hRest, hMap⟩ := ih fun a hMem => hOk a (List.mem_cons_of_mem _ hMem)
    refine ⟨b :: bs, ?_, by rw [List.map_cons, List.map_cons, hb, hMap]⟩
    rw [List.mapM_cons, hb, hRest]
    rfl

theorem map_ok_of_mapM_eq_ok {ε : Type} {f : α → Except ε β} {l : List α} {items : List β}
    (h : l.mapM f = .ok items) : items.map .ok = l.map f := by
  have hOk : ∀ a ∈ l, ∃ b, f a = .ok b := by
    induction l generalizing items with
    | nil => exact List.forall_mem_nil _
    | cons a l ih =>
      rw [List.mapM_cons] at h
      cases hFirst : f a with
      | error e => rw [hFirst] at h; cases h
      | ok b =>
        cases hRest : l.mapM f with
        | error e => rw [hFirst, hRest] at h; cases h
        | ok bs => exact List.forall_mem_cons.2 ⟨⟨b, hFirst⟩, ih hRest⟩
  obtain ⟨found, hFound, hMap⟩ := mapM_of_forall_ok hOk
  obtain rfl := Except.ok.inj (hFound.symm.trans h)
  exact hMap

/-! ## The entries above a name -/

/-- The name lies above `start`, if that is given, byte by byte. -/
def IsAbove (start : Option String) (name : String) : Prop := ∀ low ∈ start, utf8 low < utf8 name

def Ascending (entries : List Entry) : Prop :=
  entries.Pairwise fun a b => utf8 a.name < utf8 b.name

theorem isAbove_none (name : String) : IsAbove none name := fun _ hLow => by cases hLow

theorem isAbove_some {low name : String} : IsAbove (some low) name ↔ utf8 low < utf8 name := by
  simp [IsAbove]

instance (start : Option String) (name : String) : Decidable (IsAbove start name) :=
  match start with
  | none => .isTrue (isAbove_none name)
  | some _ => decidable_of_iff _ isAbove_some.symm

theorem IsAbove.trans {start : Option String} {low name : String} (h : IsAbove start low)
    (hLt : utf8 low < utf8 name) : IsAbove start name :=
  fun first hFirst => List.lt_trans (h first hFirst) hLt

namespace Named

variable {entries : SortedMap String Entry} (h : Named entries) {start : Option String}

include h

theorem mem_values {entry : Entry} :
    entry ∈ entries.values ↔ entries.get? entry.name = some entry :=
  SortedMap.mem_values_iff_get? h

theorem after_eq_filter :
    entries.after start = entries.values.filter fun entry => decide (IsAbove start entry.name) := by
  cases start with
  | none =>
    exact (List.filter_eq_self.2 fun entry _ => decide_eq_true (isAbove_none entry.name)).symm
  | some low =>
    rw [SortedMap.after, SortedMap.values, List.filter_map]
    refine congrArg _ (List.filter_congr fun pair hMem => ?_)
    rw [Bool.eq_iff_iff, Function.comp_apply, decide_eq_true_iff, isAbove_some,
      h pair.1 pair.2 (SortedMap.get?_eq_some_iff.2 hMem)]
    exact before_iff_utf8_lt

theorem mem_after {entry : Entry} : entry ∈ entries.after start ↔
    entries.get? entry.name = some entry ∧ IsAbove start entry.name := by
  rw [h.after_eq_filter, List.mem_filter, h.mem_values, decide_eq_true_iff]

theorem ascending_values : Ascending entries.values := by
  refine List.pairwise_map.2 (entries.sorted.imp_of_mem fun {a b} ha hb hBefore => ?_)
  rw [h a.1 a.2 (SortedMap.get?_eq_some_iff.2 ha), h b.1 b.2 (SortedMap.get?_eq_some_iff.2 hb)]
  exact before_iff_utf8_lt.1 hBefore

theorem ascending_after : Ascending (entries.after start) := by
  rw [h.after_eq_filter]
  exact h.ascending_values.filter _

/-- The entries above an entry are those that come after it. -/
theorem after_eq_of_append {front back : List Entry} {last : Entry}
    (hSplit : entries.after start = front ++ last :: back) :
    entries.after (some last.name) = back := by
  have hAscending : Ascending (front ++ last :: back) := hSplit ▸ h.ascending_after
  have hAbove : IsAbove start last.name := by
    refine (h.mem_after.1 ?_).2
    rw [hSplit]
    exact List.mem_append_right _ List.mem_cons_self
  have hNarrow : entries.after (some last.name) =
      (entries.after start).filter fun entry => decide (utf8 last.name < utf8 entry.name) := by
    rw [h.after_eq_filter, h.after_eq_filter, List.filter_filter]
    refine List.filter_congr fun entry _ => ?_
    rw [Bool.eq_iff_iff, Bool.and_eq_true, decide_eq_true_iff, decide_eq_true_iff,
      decide_eq_true_iff, isAbove_some]
    exact ⟨fun hLt => ⟨hLt, hAbove.trans hLt⟩, And.left⟩
  obtain ⟨-, hBack, hFront⟩ := List.pairwise_append.1 hAscending
  rw [hNarrow, hSplit, List.filter_append, List.filter_cons_of_neg (by simp [List.lt_irrefl]),
    List.filter_eq_nil_iff.2, List.filter_eq_self.2, List.nil_append]
  · exact fun entry hMem => decide_eq_true ((List.pairwise_cons.1 hBack).1 entry hMem)
  · intro entry hMem hLt
    exact List.lt_asymm (hFront entry hMem last List.mem_cons_self) (of_decide_eq_true hLt)

end Named

/-! ## What is on a page -/

/-- The page that a request from `start` on gets of a container: the first entries above `start`, up
to `limit`, as they are read, and the token of the last one if entries remain. -/
structure IsPage {m : Type → Type} (s : BlobStore m α) (limit : Nat) (start : Option String)
    (c : MemoryContainer) (page : Page (Resource α)) : Prop where
  items : page.items.map .ok = ((c.entries.after start).take limit).map s.read
  token : page.continueToken =
    if ((c.entries.after start).drop limit).isEmpty then none
    else ((c.entries.after start).take limit).getLast?.map fun last => PageToken.encode last.name
  version : page.version = toString c.revision

/-- The codec can read all entries of the container. -/
def BlobStore.Readable {m : Type → Type} (s : BlobStore m α) (c : MemoryContainer) : Prop :=
  ∀ name entry, c.entries.get? name = some entry →
    ∃ payload, s.codec.decode entry.bytes = .ok payload

theorem names_of_read {m : Type → Type} {s : BlobStore m α} {items : List (Resource α)}
    {entries : List Entry} (hItems : items.map .ok = entries.map s.read) :
    items.map (·.name) = entries.map (·.name) := by
  induction items generalizing entries with
  | nil =>
    obtain rfl := List.map_eq_nil_iff.1 hItems.symm
    rfl
  | cons item items ih =>
    cases entries with
    | nil => cases hItems
    | cons entry entries =>
      obtain ⟨hHead, hTail⟩ := List.cons.inj hItems
      rw [List.map_cons, List.map_cons, ih hTail, BlobStore.read_name hHead.symm]

/-- Of the entries above `start` the page has those in `taken`, as they are read, and not those in
`left`, which come after them. -/
structure Takes {m : Type → Type} (s : BlobStore m α) (start : Option String) (c : MemoryContainer)
    (page : Page (Resource α)) (taken left : List Entry) : Prop where
  named : Named c.entries
  split : c.entries.after start = taken ++ left
  items : page.items.map .ok = taken.map s.read

namespace Takes

variable {m : Type → Type} {s : BlobStore m α} {start : Option String} {c : MemoryContainer}
  {page : Page (Resource α)}

section

variable {taken left : List Entry} (h : Takes s start c page taken left)

include h

theorem length_items : page.items.length = taken.length := by
  simpa using congrArg List.length h.items

theorem names_items : page.items.map (·.name) = taken.map (·.name) := names_of_read h.items

theorem stored {item : Resource α} (hMem : item ∈ page.items) :
    ∃ entry, c.entries.get? item.name = some entry ∧ s.read entry = .ok item := by
  obtain ⟨entry, hEntry, hRead⟩ : ∃ entry ∈ taken, s.read entry = .ok item :=
    List.mem_map.1 (h.items ▸ List.mem_map_of_mem hMem)
  have hAfter : entry ∈ c.entries.after start := by
    rw [h.split]
    exact List.mem_append_left _ hEntry
  exact ⟨entry, BlobStore.read_name hRead ▸ (h.named.mem_after.1 hAfter).1, hRead⟩

theorem above {name : String} (hMem : name ∈ page.items.map (·.name)) : IsAbove start name := by
  rw [h.names_items] at hMem
  obtain ⟨entry, hEntry, rfl⟩ := List.mem_map.1 hMem
  refine (h.named.mem_after.1 ?_).2
  rw [h.split]
  exact List.mem_append_left _ hEntry

theorem ascending : (page.items.map (·.name)).Pairwise fun a b => utf8 a < utf8 b := by
  rw [h.names_items]
  have hAscending : Ascending (taken ++ left) := h.split ▸ h.named.ascending_after
  exact List.pairwise_map.2 (List.pairwise_append.1 hAscending).1

/-- A name that is there and lies above `start` is on the page, or left for later. -/
theorem mem_or_left {name : String} (hAbove : IsAbove start name)
    (hPresent : c.entries.contains name = true) :
    name ∈ page.items.map (·.name) ∨ ∃ entry ∈ left, entry.name = name := by
  obtain ⟨entry, hStored⟩ := SortedMap.contains_iff.1 hPresent
  have hName : entry.name = name := h.named name entry hStored
  subst hName
  have hAfter : entry ∈ taken ++ left := h.split ▸ h.named.mem_after.2 ⟨hStored, hAbove⟩
  rw [h.names_items]
  rcases List.mem_append.1 hAfter with hTaken | hLeft
  · exact .inl (List.mem_map_of_mem hTaken)
  · exact .inr ⟨entry, hLeft, rfl⟩

end

/-! ### Pages before others -/

variable {front back : List Entry} {last : Entry}
  (h : Takes s start c page (front ++ [last]) back)

include h

theorem last_above : IsAbove start last.name := by
  refine h.above ?_
  rw [h.names_items]
  exact List.mem_map_of_mem (List.mem_append_right _ List.mem_cons_self)

/-- No name on the page lies above the last one. -/
theorem le_last {name : String} (hMem : name ∈ page.items.map (·.name)) :
    name = last.name ∨ utf8 name < utf8 last.name := by
  have hAscending := h.ascending
  rw [h.names_items, List.map_append] at hMem hAscending
  rcases List.mem_append.1 hMem with hFront | hLast
  · exact .inr ((List.pairwise_append.1 hAscending).2.2 name hFront last.name List.mem_cons_self)
  · exact .inl (List.mem_singleton.1 hLast)

theorem last_lt {entry : Entry} (hMem : entry ∈ back) : utf8 last.name < utf8 entry.name := by
  have hAscending : Ascending ((front ++ [last]) ++ back) := h.split ▸ h.named.ascending_after
  exact (List.pairwise_append.1 hAscending).2.2 last
    (List.mem_append_right _ List.mem_cons_self) entry hMem

/-- What is left is what lies above the last name. -/
theorem after_last : c.entries.after (some last.name) = back :=
  h.named.after_eq_of_append (by rw [h.split, List.append_assoc]; rfl)

end Takes

/-- A page either takes all entries above `start`, or it is full and ends with an entry before
others that are left. -/
theorem IsPage.takes {m : Type → Type} {s : BlobStore m α} {limit : Nat} {start : Option String}
    {c : MemoryContainer} {page : Page (Resource α)} (h : IsPage s limit start c page)
    (hPositive : 0 < limit) (hNamed : Named c.entries) :
    (∃ taken, Takes s start c page taken [] ∧ taken.length ≤ limit ∧ page.continueToken = none) ∨
    ∃ front last back, Takes s start c page (front ++ [last]) back ∧ back ≠ [] ∧
      (front ++ [last]).length = limit ∧
      page.continueToken = some (PageToken.encode last.name) := by
  have hItems := h.items
  have hToken := h.token
  rcases Nat.lt_or_ge limit (c.entries.after start).length with hMore | hAll
  · right
    have hTake : (c.entries.after start).take limit ≠ [] := by
      rw [Ne, List.take_eq_nil_iff]
      rintro (hZero | hNil)
      · omega
      · rw [hNil] at hMore
        exact absurd hMore (Nat.not_lt_zero _)
    have hDrop : (c.entries.after start).drop limit ≠ [] := by
      rw [Ne, List.drop_eq_nil_iff]
      omega
    obtain ⟨front, last, hFront⟩ := (List.eq_nil_or_concat' _).resolve_left hTake
    refine ⟨front, last, (c.entries.after start).drop limit, ⟨hNamed, ?_, ?_⟩, hDrop, ?_, ?_⟩
    · rw [← hFront, List.take_append_drop]
    · rw [← hFront, hItems]
    · rw [← hFront, List.length_take, Nat.min_eq_left (Nat.le_of_lt hMore)]
    · rw [hFront, List.getLast?_concat, List.isEmpty_eq_false_iff.2 hDrop] at hToken
      exact hToken
  · left
    rw [List.drop_eq_nil_of_le hAll] at hToken
    rw [List.take_of_length_le hAll] at hItems
    exact ⟨_, ⟨hNamed, (List.append_nil _).symm, hItems⟩, hAll, hToken⟩

theorem StoreConfig.pageSize_pos {config : StoreConfig} (hPositive : 0 < config.maxPageSize)
    (requested : Option Nat) : 0 < config.pageSize requested := by
  match requested with
  | none => exact hPositive
  | some 0 => exact hPositive
  | some (limit + 1) => exact Nat.lt_min.2 ⟨limit.succ_pos, hPositive⟩

namespace MemoryContainer

variable (c : MemoryContainer) {options : ListOptions}

/-- A reading leaves the container as it is. -/
theorem runOn_list_snd (options : ListOptions) : (runOn (list options) c).2 = c := by
  rw [list]
  cases options.continueToken with
  | none => rfl
  | some token => cases hToken : PageToken.decode token <;> simp only [hToken] <;> rfl

/-- A page has no other entries than those that it is made of. -/
theorem mem_of_mem_page {version : String} {limit : Option Nat} {entries : List Entry}
    {entry : Entry} (hMem : entry ∈ (page version limit entries).items) : entry ∈ entries := by
  match limit, hMem with
  | none, hMem | some 0, hMem => exact hMem
  | some (_ + 1), hMem => exact List.mem_of_mem_take hMem

/-- The token of a page of entries is that of the last of them. -/
theorem token_page {version : String} {limit : Option Nat} {entries : List Entry}
    {token : String} (hToken : (page version limit entries).continueToken = some token) :
    ∃ last, (page version limit entries).items.getLast? = some last ∧
      PageToken.encode last.name = token := by
  match limit with
  | none => cases hToken
  | some 0 => cases hToken
  | some (limit + 1) =>
    simp only [page] at hToken ⊢
    split at hToken
    · cases hToken
    · exact Option.map_eq_some_iff.1 hToken

/-- A reading of a page fails, or it gives entries above some name. -/
theorem runOn_list_cases (options : ListOptions) :
    (∃ e, runOn (list options) c = (.error e, c)) ∨
      ∃ start, runOn (list options) c =
        (.ok (page (toString c.revision) options.limit (c.entries.after start)), c) := by
  rw [list]
  cases options.continueToken with
  | none => exact .inr ⟨none, rfl⟩
  | some token =>
    cases hToken : PageToken.decode token with
    | error fault => exact .inl ⟨.invalid fault.message, by simp only [hToken]; rfl⟩
    | ok name => exact .inr ⟨some name, by simp only [hToken]; rfl⟩

theorem runOn_list_of_start {start : Option String}
    (hToken : options.continueToken = start.map PageToken.encode) :
    runOn (list options) c =
      (.ok (page (toString c.revision) options.limit (c.entries.after start)), c) := by
  simp only [list, hToken]
  cases start with
  | none => rfl
  | some name =>
    simp only [Option.map_some, PageToken.decode_encode]
    rfl

theorem runOn_list_of_fault {token : String} {fault : PageToken.Fault}
    (hToken : options.continueToken = some token) (hFault : PageToken.decode token = .error fault) :
    runOn (list options) c = (.error (.invalid fault.message), c) := by
  simp only [list, hToken, hFault]
  rfl

end MemoryContainer

namespace BlobStore

variable {σ : Type} {s : BlobStore (StateM σ) α} {p : Part σ MemoryContainer}
  (hContainer : s.container = MemoryContainer.container p.cell)
  (hSupported : s.capabilities.supports .list = true) (st : σ) (options : ListOptions)

include hContainer hSupported

theorem runOn_list :
    runOn (s.list options) st =
      match (runOn (MemoryContainer.list
        { options with limit := some (s.config.pageSize options.limit) }) (p.read st)).1 with
      | .error e => (.error (e.toStoreError s.collection), st)
      | .ok page =>
        ((page.items.mapM s.read).map fun items => { page with items := items }, st) := by
  have hReads := MemoryContainer.runOn_list_snd (p.read st)
    { options with limit := some (s.config.pageSize options.limit) }
  rw [list, runOn_bind, runOn_ofExcept, Capabilities.require_eq_ok hSupported]
  simp only [runOn_bind, access, hContainer, MemoryContainer.container, runOn_adapt, runOn_cell,
    hReads, Part.write_read]
  rcases (runOn (MemoryContainer.list
    { options with limit := some (s.config.pageSize options.limit) }) (p.read st)).1 with e | page
  · rfl
  · simp only [mapError_ok, runOn_ofExcept]
    cases page.items.mapM s.read <;> rfl

/-- If the container gives the page of `limit + 1` entries, the store reads it. -/
theorem list_isPage_of_eq (hNamed : Named (p.read st).entries) (hReadable : s.Readable (p.read st))
    (start : Option String) {limit : Nat}
    (hPage : MemoryContainer.page (toString (p.read st).revision)
        (some (s.config.pageSize options.limit)) ((p.read st).entries.after start) =
      MemoryContainer.page (toString (p.read st).revision) (some (limit + 1))
        ((p.read st).entries.after start)) :
    ∃ page,
      runOn (s.list { options with continueToken := start.map PageToken.encode }) st =
        (.ok page, st) ∧ IsPage s (limit + 1) start (p.read st) page := by
  obtain ⟨items, hRead, hItems⟩ := mapM_of_forall_ok (f := s.read)
    (l := ((p.read st).entries.after start).take (limit + 1)) fun entry hMem => by
      obtain ⟨payload, hDecode⟩ := hReadable _ entry
        (hNamed.mem_after.1 (List.mem_of_mem_take hMem)).1
      exact ⟨_, read_eq_ok_iff.2 ⟨payload, hDecode, rfl⟩⟩
  refine ⟨{ MemoryContainer.page (toString (p.read st).revision) (some (limit + 1))
    ((p.read st).entries.after start) with items := items }, ?_, ⟨hItems, rfl, rfl⟩⟩
  rw [runOn_list hContainer hSupported, MemoryContainer.runOn_list_of_start _ rfl]
  dsimp only
  rw [hPage]
  simp only [MemoryContainer.page, hRead, map_ok]

/-- A request with the token of a name begins above this name, and one without a token with the
first entry. -/
theorem list_isPage (hPositive : 0 < s.config.maxPageSize) (hNamed : Named (p.read st).entries)
    (hReadable : s.Readable (p.read st)) (start : Option String) :
    ∃ page,
      runOn (s.list { options with continueToken := start.map PageToken.encode }) st =
        (.ok page, st) ∧
        IsPage s (s.config.pageSize options.limit) start (p.read st) page := by
  obtain ⟨limit, hLimit⟩ := Nat.exists_eq_add_one.2
    (StoreConfig.pageSize_pos hPositive options.limit)
  rw [hLimit]
  exact list_isPage_of_eq hContainer hSupported st options hNamed hReadable start (by rw [hLimit])

/-- Where the size of a page is zero, it has room for all entries. -/
theorem list_isPage_of_zero (hZero : s.config.pageSize options.limit = 0)
    (hNamed : Named (p.read st).entries) (hReadable : s.Readable (p.read st))
    (start : Option String) {limit : Nat}
    (hRoom : ((p.read st).entries.after start).length ≤ limit + 1) :
    ∃ page,
      runOn (s.list { options with continueToken := start.map PageToken.encode }) st =
        (.ok page, st) ∧ IsPage s (limit + 1) start (p.read st) page := by
  refine list_isPage_of_eq hContainer hSupported st options hNamed hReadable start ?_
  simp only [hZero, MemoryContainer.page, List.take_of_length_le hRoom,
    List.drop_eq_nil_of_le hRoom]
  rfl

/-- A request with a text that is the token of no name is refused. -/
theorem list_of_no_token {token : String} (hOther : ∀ name, PageToken.encode name ≠ token) :
    ∃ reason, runOn (s.list { options with continueToken := some token }) st =
      (.error (.validationFailed reason), st) := by
  obtain ⟨fault, hFault⟩ := PageToken.decode_eq_error hOther
  refine ⟨fault.message, ?_⟩
  rw [runOn_list hContainer hSupported, MemoryContainer.runOn_list_of_fault _ rfl hFault]
  rfl

end BlobStore

end Tenancy
