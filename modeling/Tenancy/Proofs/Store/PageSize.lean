import Tenancy.Proofs.Store.Scan

/-!
# The size of a page

A store asks its container for as many items as are requested and allowed.  To the container zero is
no bound, so where none are allowed all are given.

* `StoreConfig.bounds_iff_le`: the page size is the greatest number within both bounds.
* `BlobStore.list_length`: how many items a page has.
* `page_bounded_iff`: when they are within the bounds.
* `zero_page_size_bounds_nothing`: a store that exceeds them.
-/

namespace Tenancy

variable {α σ : Type}

namespace StoreConfig

/-- So many items are no more than the configuration allows, and no more than are requested, if
there is a request for more than none. -/
structure Bounds (config : StoreConfig) (requested : Option Nat) (count : Nat) : Prop where
  allowed : count ≤ config.maxPageSize
  requested : ∀ limit, requested = some limit → 0 < limit → count ≤ limit

theorem bounds_iff_le {config : StoreConfig} {requested : Option Nat} {count : Nat} :
    config.Bounds requested count ↔ count ≤ config.pageSize requested := by
  match requested with
  | none => exact ⟨Bounds.allowed, fun hLe => ⟨hLe, nofun⟩⟩
  | some 0 =>
    refine ⟨Bounds.allowed, fun hLe => ⟨hLe, ?_⟩⟩
    rintro _ ⟨⟩ hPositive
    exact absurd hPositive (Nat.lt_irrefl 0)
  | some (limit + 1) =>
    rw [pageSize, Nat.le_min]
    constructor
    · exact fun h => ⟨h.requested _ rfl limit.succ_pos, h.allowed⟩
    · rintro ⟨hLimit, hAllowed⟩
      exact ⟨hAllowed, fun _ hSome _ => Option.some.inj hSome ▸ hLimit⟩

theorem pageSize_pos_iff {config : StoreConfig} (requested : Option Nat) :
    0 < config.pageSize requested ↔ 0 < config.maxPageSize := by
  refine ⟨fun hPositive => Nat.lt_of_lt_of_le hPositive ?_, fun h => pageSize_pos h requested⟩
  exact (bounds_iff_le.2 (Nat.le_refl _)).allowed

end StoreConfig

/-- To a container zero is no bound. -/
theorem MemoryContainer.length_page (version : String) (size : Nat) (entries : List Entry) :
    (page version (some size) entries).items.length =
      if size = 0 then entries.length else min size entries.length := by
  cases size with
  | zero => rfl
  | succ size => exact List.length_take

namespace BlobStore

variable {s : BlobStore (StateM σ) α} {p : Part σ MemoryContainer}
  (hContainer : s.container = MemoryContainer.container p.cell)
  (hSupported : s.capabilities.supports .list = true) (st : σ)
  (hReadable : s.Readable (p.read st)) (options : ListOptions) (start : Option String)
  (hToken : options.continueToken = start.map PageToken.encode)

include hContainer hSupported hReadable hToken

/-- The store reads the page that the container gives. -/
theorem list_reads : ∃ items,
    let given := MemoryContainer.page (toString (p.read st).revision)
      (some (s.config.pageSize options.limit)) ((p.read st).entries.after start)
    runOn (s.list options) st = (.ok { given with items := items }, st) ∧
      items.map .ok = given.items.map s.read := by
  have hGiven : runOn (MemoryContainer.list
      { options with limit := some (s.config.pageSize options.limit) }) (p.read st) =
      (.ok (MemoryContainer.page (toString (p.read st).revision)
        (some (s.config.pageSize options.limit)) ((p.read st).entries.after start)), p.read st) :=
    MemoryContainer.runOn_list_of_start _ hToken
  generalize hPage : MemoryContainer.page (toString (p.read st).revision)
    (some (s.config.pageSize options.limit)) ((p.read st).entries.after start) = given at hGiven
  obtain ⟨items, hRead, hItems⟩ := mapM_of_forall_ok (f := s.read) (l := given.items)
    fun entry hMem => by
      subst hPage
      obtain ⟨name, hStored⟩ := SortedMap.mem_values.1
        (SortedMap.mem_values_of_mem_after (MemoryContainer.mem_of_mem_page hMem))
      obtain ⟨payload, hDecode⟩ := hReadable name entry hStored
      exact ⟨_, read_eq_ok_iff.2 ⟨payload, hDecode, rfl⟩⟩
  refine ⟨items, ?_, hItems⟩
  rw [runOn_list hContainer hSupported, hGiven]
  dsimp only
  rw [hRead]
  rfl

theorem list_length : ∃ page, runOn (s.list options) st = (.ok page, st) ∧
    page.items.length =
      if s.config.pageSize options.limit = 0 then ((p.read st).entries.after start).length
      else min (s.config.pageSize options.limit) ((p.read st).entries.after start).length := by
  obtain ⟨items, hRun, hItems⟩ :=
    list_reads hContainer hSupported st hReadable options start hToken
  refine ⟨_, hRun, ?_⟩
  rw [← MemoryContainer.length_page (toString (p.read st).revision)]
  simpa using congrArg List.length hItems

end BlobStore

/-- **A page is within its bounds unless none are allowed and there are some**: every request with
the token of a name, or with none, gets a page, and this has no more items than are allowed and
requested just if the configuration allows some or no entries lie above the name. -/
theorem page_bounded_iff {s : BlobStore (StateM σ) α} {p : Part σ MemoryContainer}
    (hContainer : s.container = MemoryContainer.container p.cell)
    (hSupported : s.capabilities.supports .list = true) (st : σ)
    (hReadable : s.Readable (p.read st)) (options : ListOptions) (start : Option String)
    (hToken : options.continueToken = start.map PageToken.encode) :
    ∃ page, runOn (s.list options) st = (.ok page, st) ∧
      (s.config.Bounds options.limit page.items.length ↔
        0 < s.config.maxPageSize ∨ (p.read st).entries.after start = []) := by
  obtain ⟨page, hRun, hLength⟩ :=
    BlobStore.list_length hContainer hSupported st hReadable options start hToken
  refine ⟨page, hRun, ?_⟩
  rw [StoreConfig.bounds_iff_le, hLength, ← StoreConfig.pageSize_pos_iff options.limit]
  split
  · rename_i hZero
    rw [hZero, Nat.le_zero, List.length_eq_zero_iff, or_iff_right (Nat.lt_irrefl 0)]
  · rename_i hPositive
    exact iff_of_true (Nat.min_le_left _ _) (.inl (Nat.pos_of_ne_zero hPositive))

def MemoryContainer.holding (names : List String) : MemoryContainer :=
  ContainerStep.runAll (names.map ContainerStep.creating) (.ofCapacity 8)

theorem BlobStore.readable_verbatim {s : BlobStore (StateM MemoryContainer) Bytes}
    (hCodec : s.codec = .verbatim) (c : MemoryContainer) : s.Readable c := by
  intro _ entry _
  rw [hCodec]
  exact ⟨entry.bytes, rfl⟩

/-- Five items are requested and two are allowed, and three lie above the name of the token. -/
theorem page_bounded_iff_in_pairs :
    let c := MemoryContainer.holding ["a", "b", "c", "d"]
    let options : ListOptions :=
      { limit := some 5, continueToken := some (PageToken.encode "a") }
    BlobStore.inPairs.Readable c ∧
      ∃ page, runOn (BlobStore.inPairs.list options) c = (.ok page, c) ∧
        BlobStore.inPairs.config.Bounds (some 5) page.items.length := by
  intro c options
  have hReadable := BlobStore.readable_verbatim (s := .inPairs) rfl c
  obtain ⟨page, hRun, hBounds⟩ := page_bounded_iff (p := .whole) rfl rfl c hReadable options
    (some "a") rfl
  exact ⟨hReadable, page, hRun, hBounds.2 (.inl (by decide))⟩

def BlobStore.pageless : BlobStore (StateM MemoryContainer) Bytes :=
  { BlobStore.inPairs with config := { maxPageSize := 0 } }

/-- Where no items are allowed and one is requested, a page has all that there are. -/
theorem zero_page_size_bounds_nothing :
    let c := MemoryContainer.holding ["a", "b", "c"]
    BlobStore.pageless.Readable c ∧ ∃ page,
      runOn (BlobStore.pageless.list { limit := some 1 }) c = (.ok page, c) ∧
        page.items.length = 3 ∧
        ¬ BlobStore.pageless.config.Bounds (some 1) page.items.length := by
  intro c
  have hReadable := BlobStore.readable_verbatim (s := .pageless) rfl c
  obtain ⟨page, hRun, hLength⟩ := BlobStore.list_length (p := .whole) rfl rfl c hReadable
    { limit := some 1 } none rfl
  have hThree : page.items.length = 3 := hLength.trans (by decide +kernel)
  refine ⟨hReadable, page, hRun, hThree, fun hBounds => ?_⟩
  exact absurd (hThree ▸ hBounds.allowed) (by decide)

end Tenancy
