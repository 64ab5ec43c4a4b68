import Tenancy.Proofs.Store.ChangeLog
import Tenancy.Proofs.Store.Page

/-!
# Scans

A scan asks for one page after the other, each time with the token of the page before it, until a
page has no token.  Between the requests the container may change in any way.

The invariant is that of the token: all names up to it have been passed and none above it, whatever
has become of the entry whose name it is.

* `Pages`: the pages of a scan that begins above a name.
* `BlobStore.pages_scan`: every scan gets them.
* `scan_loses_and_repeats_nothing`: what they amount to.
-/

namespace Tenancy

variable {α : Type}

/-- The requests of a scan: the container at the time of each of them, and its answer. -/
abbrev Visits (α : Type) := List (MemoryContainer × Except StoreError (Page (Resource α)))

namespace Visits

def items (visits : Visits α) : List (Resource α) :=
  visits.flatMap fun visit =>
    match visit.2 with
    | .ok page => page.items
    | .error _ => []

def names (visits : Visits α) : List String := visits.items.map (·.name)

/-- The last answer is a page without a token. -/
def IsFinished (visits : Visits α) : Prop :=
  ∃ c page, visits.getLast? = some (c, .ok page) ∧ page.continueToken = none

instance (visits : Visits α) : Decidable visits.IsFinished :=
  decidable_of_iff
    ((visits.getLast?.bind (·.2.toOption)).map (·.continueToken) = some none) <| by
      rcases hLast : visits.getLast? with _ | ⟨c, _ | page⟩ <;>
        simp [IsFinished, hLast, Except.toOption]

end Visits

/-- The scan from a token on.  There are as many requests as there are gaps, or fewer if there is
nothing to follow; the steps of a gap come before its request. -/
def BlobStore.scan (s : BlobStore (StateM MemoryContainer) α) (options : ListOptions) :
    List (List ContainerStep) → Option String → MemoryContainer → Visits α
  | [], _, _ => []
  | steps :: gaps, token, c =>
    let c := ContainerStep.runAll steps c
    match runOn (s.list { options with continueToken := token }) c with
    | (.error e, _) => [(c, .error e)]
    | (.ok page, c') =>
      (c, .ok page) :: match page.continueToken with
        | none => []
        | some next => s.scan options gaps (some next) c'

/-! ## The pages of a scan -/

/-- The pages of a scan that begins above `start`, where there may be as many requests as the number
says. -/
inductive Pages {m : Type → Type} (s : BlobStore m α) (limit : Nat) :
    Nat → Option String → Visits α → Prop
  | cut (start : Option String) : Pages s limit 0 start []
  | last (gaps : Nat) (start : Option String) (c : MemoryContainer) (page : Page (Resource α))
      (taken : List Entry) (hTakes : Takes s start c page taken [])
      (hLength : taken.length ≤ limit) (hToken : page.continueToken = none) :
      Pages s limit (gaps + 1) start [(c, .ok page)]
  | next (gaps : Nat) (start : Option String) (c : MemoryContainer) (page : Page (Resource α))
      (front : List Entry) (last : Entry) (back : List Entry) (rest : Visits α)
      (hTakes : Takes s start c page (front ++ [last]) back) (hBack : back ≠ [])
      (hLength : (front ++ [last]).length = limit) (hToken : page.continueToken ≠ none)
      (hRest : Pages s limit gaps (some last.name) rest) :
      Pages s limit (gaps + 1) start ((c, .ok page) :: rest)

namespace BlobStore

theorem mem_scan_cons (s : BlobStore (StateM MemoryContainer) α) (options : ListOptions)
    (steps : List ContainerStep) (gaps : List (List ContainerStep)) (token : Option String)
    (c : MemoryContainer) :
    ∃ answer, (ContainerStep.runAll steps c, answer) ∈ s.scan options (steps :: gaps) token c := by
  rcases hRun : runOn (s.list { options with continueToken := token })
    (ContainerStep.runAll steps c) with ⟨e | page, c'⟩
  · exact ⟨.error e, by simp [scan, hRun]⟩
  · exact ⟨.ok page, by simp [scan, hRun]⟩

variable {s : BlobStore (StateM MemoryContainer) α}
  (hContainer : s.container = MemoryContainer.container .whole)
  (hSupported : s.capabilities.supports .list = true) (hPositive : 0 < s.config.maxPageSize)
  (options : ListOptions)

include hContainer hSupported

theorem scan_of_no_token {token : String} (hOther : ∀ name, PageToken.encode name ≠ token)
    (steps : List ContainerStep) (gaps : List (List ContainerStep)) (c : MemoryContainer) :
    ∃ reason, s.scan options (steps :: gaps) (some token) c =
      [(ContainerStep.runAll steps c, .error (.validationFailed reason))] := by
  obtain ⟨reason, hRun⟩ := list_of_no_token (p := .whole) hContainer hSupported
    (ContainerStep.runAll steps c) options hOther
  exact ⟨reason, by simp only [scan, hRun]⟩

include hPositive

theorem pages_scan (gaps : List (List ContainerStep)) (start : Option String) {c : MemoryContainer}
    (hSound : c.Sound)
    (hReadable : ∀ visit ∈ s.scan options gaps (start.map PageToken.encode) c,
      s.Readable visit.1) :
    Pages s (s.config.pageSize options.limit) gaps.length start
      (s.scan options gaps (start.map PageToken.encode) c) := by
  induction gaps generalizing start c with
  | nil => exact .cut start
  | cons steps gaps ih =>
    obtain ⟨hSound, -⟩ := ContainerStep.grows_run hSound steps
    have hHere : s.Readable (ContainerStep.runAll steps c) := by
      obtain ⟨answer, hMem⟩ := s.mem_scan_cons options steps gaps (start.map PageToken.encode) c
      exact hReadable _ hMem
    obtain ⟨page, hRun, hPage⟩ := list_isPage (p := .whole) hContainer hSupported
      (ContainerStep.runAll steps c) options hPositive hSound.named hHere start
    have hScan : s.scan options (steps :: gaps) (start.map PageToken.encode) c =
        (ContainerStep.runAll steps c, .ok page) :: match page.continueToken with
          | none => []
          | some next => s.scan options gaps (some next) (ContainerStep.runAll steps c) := by
      simp only [scan, hRun]
    rcases hPage.takes (StoreConfig.pageSize_pos hPositive options.limit) hSound.named with
      ⟨taken, hTakes, hLength, hToken⟩ | ⟨front, last, back, hTakes, hBack, hLength, hToken⟩
    · simp only [hScan, hToken]
      exact .last gaps.length start _ page taken hTakes hLength hToken
    · simp only [hScan, hToken] at hReadable ⊢
      refine .next gaps.length start _ page front last back _ hTakes hBack hLength
        (by simp [hToken]) (ih (some last.name) hSound fun visit hMem => ?_)
      exact hReadable visit (List.mem_cons_of_mem _ hMem)

end BlobStore

/-! ## What the pages amount to -/

namespace Visits

variable {c : MemoryContainer} {page : Page (Resource α)} {rest : Visits α}

theorem names_cons : names ((c, .ok page) :: rest) = page.items.map (·.name) ++ rest.names := by
  simp [names, items]

theorem items_cons : items ((c, .ok page) :: rest) = page.items ++ rest.items := by
  simp [items]

theorem isFinished_last (hToken : page.continueToken = none) :
    IsFinished [(c, .ok page)] := ⟨c, page, rfl, hToken⟩

theorem isFinished_next (hToken : page.continueToken ≠ none) :
    IsFinished ((c, .ok page) :: rest) ↔ rest.IsFinished := by
  cases rest with
  | nil =>
    constructor
    · rintro ⟨c', page', hLast, hNone⟩
      cases hLast
      exact absurd hNone hToken
    · rintro ⟨c', page', hLast, -⟩
      cases hLast
  | cons visit rest => simp only [IsFinished, List.getLast?_cons_cons]

end Visits

namespace Pages

variable {m : Type → Type} {s : BlobStore m α} {limit gaps : Nat} {start : Option String}
  {visits : Visits α}

theorem answered (h : Pages s limit gaps start visits) : ∀ visit ∈ visits,
    ∃ page, visit.2 = .ok page ∧ page.items.length ≤ limit ∧
      ∀ item ∈ page.items, ∃ entry,
        visit.1.entries.get? item.name = some entry ∧ s.read entry = .ok item := by
  induction h with
  | cut start => exact fun _ hMem => by cases hMem
  | last gaps start c page taken hTakes hLength hToken =>
    intro visit hMem
    obtain rfl := List.mem_singleton.1 hMem
    exact ⟨page, rfl, hTakes.length_items ▸ hLength, fun _ => hTakes.stored⟩
  | next gaps start c page front last back rest hTakes hBack hLength hToken _ ih =>
    intro visit hMem
    rcases List.mem_cons.1 hMem with rfl | hRest
    · exact ⟨page, rfl, Nat.le_of_eq (hTakes.length_items.trans hLength), fun _ => hTakes.stored⟩
    · exact ih visit hRest

/-- A name on a page was there at the request of the page. -/
theorem present (h : Pages s limit gaps start visits) {name : String}
    (hMem : name ∈ visits.names) : ∃ visit ∈ visits, visit.1.entries.contains name = true := by
  obtain ⟨item, hItem, rfl⟩ := List.mem_map.1 hMem
  obtain ⟨visit, hVisit, hPage⟩ := List.mem_flatMap.1 hItem
  obtain ⟨page, hAnswer, -, hStored⟩ := h.answered visit hVisit
  rw [hAnswer] at hPage
  obtain ⟨entry, hEntry, -⟩ := hStored item hPage
  exact ⟨visit, hVisit, SortedMap.contains_iff.2 ⟨entry, hEntry⟩⟩

/-- All names lie above the beginning of the scan. -/
theorem above (h : Pages s limit gaps start visits) :
    ∀ name ∈ visits.names, IsAbove start name := by
  induction h with
  | cut start => exact fun _ hMem => by cases hMem
  | last gaps start c page taken hTakes hLength hToken =>
    intro name hMem
    rw [Visits.names_cons, List.mem_append] at hMem
    rcases hMem with hPage | hNil
    · exact hTakes.above hPage
    · cases hNil
  | next gaps start c page front last back rest hTakes hBack hLength hToken _ ih =>
    intro name hMem
    rw [Visits.names_cons, List.mem_append] at hMem
    rcases hMem with hPage | hRest
    · exact hTakes.above hPage
    · exact hTakes.last_above.trans (isAbove_some.1 (ih name hRest))

/-- The names of later pages lie above the last name of a page, and so above all names there. -/
theorem ascending (h : Pages s limit gaps start visits) :
    visits.names.Pairwise fun a b => utf8 a < utf8 b := by
  induction h with
  | cut start => exact .nil
  | last gaps start c page taken hTakes hLength hToken =>
    rw [Visits.names_cons]
    exact List.pairwise_append.2 ⟨hTakes.ascending, .nil, fun _ _ _ hNil => by cases hNil⟩
  | next gaps start c page front last back rest hTakes hBack hLength hToken hRest ih =>
    rw [Visits.names_cons]
    refine List.pairwise_append.2 ⟨hTakes.ascending, ih, fun a ha b hb => ?_⟩
    have hLast : utf8 last.name < utf8 b := isAbove_some.1 (hRest.above b hb)
    rcases hTakes.le_last ha with rfl | hLess
    · exact hLast
    · exact List.lt_trans hLess hLast

/-- A name that is there at every request is on a page, if the scan comes to its end. -/
theorem complete (h : Pages s limit gaps start visits) (hFinished : visits.IsFinished)
    {name : String} (hAbove : IsAbove start name)
    (hPresent : ∀ visit ∈ visits, visit.1.entries.contains name = true) : name ∈ visits.names := by
  induction h with
  | cut start =>
    obtain ⟨c, page, hLast, -⟩ := hFinished
    cases hLast
  | last gaps start c page taken hTakes hLength hToken =>
    rw [Visits.names_cons]
    rcases hTakes.mem_or_left hAbove (hPresent _ List.mem_cons_self) with hPage | ⟨_, hNil, -⟩
    · exact List.mem_append_left _ hPage
    · cases hNil
  | next gaps start c page front last back rest hTakes hBack hLength hToken _ ih =>
    rw [Visits.names_cons]
    rcases hTakes.mem_or_left hAbove (hPresent _ List.mem_cons_self) with
      hPage | ⟨entry, hLeft, hEq⟩
    · exact List.mem_append_left _ hPage
    · refine List.mem_append_right _ (ih ((Visits.isFinished_next hToken).1 hFinished) ?_ ?_)
      · exact isAbove_some.2 (hEq ▸ hTakes.last_lt hLeft)
      · exact fun visit hMem => hPresent visit (List.mem_cons_of_mem _ hMem)

end Pages

def pageCount (limit size : Nat) : Nat := max 1 ((size + limit - 1) / limit)

theorem pageCount_of_le {limit size : Nat} (hPositive : 0 < limit) (hLe : size ≤ limit) :
    pageCount limit size = 1 := by
  have hDiv : (size + limit - 1) / limit < 2 := (Nat.div_lt_iff_lt_mul hPositive).2 (by omega)
  rw [pageCount]
  omega

theorem pageCount_add {limit size : Nat} (hPositive : 0 < limit) (hSize : 0 < size) :
    pageCount limit (limit + size) = pageCount limit size + 1 := by
  have hDiv : 0 < (size + limit - 1) / limit := Nat.div_pos (by omega) hPositive
  have hSum : limit + size + limit - 1 = size + limit - 1 + limit := by omega
  rw [pageCount, pageCount, hSum, Nat.add_div_right _ hPositive]
  omega

/-- A scan of entries that stay the same ends after as many pages as they need, and has them all. -/
theorem Pages.quiet {m : Type → Type} {s : BlobStore m α} {limit gaps : Nat}
    {start : Option String} {visits : Visits α} (h : Pages s limit gaps start visits)
    (hPositive : 0 < limit) {entries : SortedMap String Entry}
    (hQuiet : ∀ visit ∈ visits, visit.1.entries = entries)
    (hEnough : pageCount limit (entries.after start).length ≤ gaps) :
    visits.length = pageCount limit (entries.after start).length ∧ visits.IsFinished ∧
      visits.items.map .ok = (entries.after start).map s.read := by
  induction h with
  | cut start =>
    have hOne : 1 ≤ pageCount limit (entries.after start).length := Nat.le_max_left ..
    omega
  | last gaps start c page taken hTakes hLength hToken =>
    have hSame : c.entries = entries := hQuiet _ List.mem_cons_self
    subst hSame
    have hAll : c.entries.after start = taken := by rw [hTakes.split, List.append_nil]
    rw [hAll, pageCount_of_le hPositive hLength, Visits.items_cons, ← hTakes.items]
    exact ⟨rfl, Visits.isFinished_last hToken, by simp [Visits.items]⟩
  | next gaps start c page front last back rest hTakes hBack hLength hToken hRest ih =>
    have hSame : c.entries = entries := hQuiet _ List.mem_cons_self
    subst hSame
    have hNext : c.entries.after (some last.name) = back := hTakes.after_last
    have hCount : pageCount limit (c.entries.after start).length =
        pageCount limit back.length + 1 := by
      rw [hTakes.split, List.length_append, hLength,
        pageCount_add hPositive (List.length_pos_iff.2 hBack)]
    rw [hNext] at ih
    obtain ⟨hVisits, hFinished, hItems⟩ := ih
      (fun visit hMem => hQuiet visit (List.mem_cons_of_mem _ hMem)) (by omega)
    refine ⟨by rw [List.length_cons, hVisits, hCount],
      (Visits.isFinished_next hToken).2 hFinished, ?_⟩
    rw [Visits.items_cons, List.map_append, hTakes.items, hItems, hTakes.split, ← List.map_append]

/-! ## Every scan -/

/-- A scan that begins above `start`, with at most `requests` requests, has lost and repeated
nothing. -/
structure Visits.Exact {m : Type → Type} (s : BlobStore m α) (limit : Nat) (start : Option String)
    (requests : Nat) (visits : Visits α) : Prop where
  /-- Every answer is a page within the limit, with items that are read from entries of the time. -/
  answered : ∀ visit ∈ visits, ∃ page, visit.2 = .ok page ∧ page.items.length ≤ limit ∧
    ∀ item ∈ page.items, ∃ entry,
      visit.1.entries.get? item.name = some entry ∧ s.read entry = .ok item
  ascending : visits.names.Pairwise fun a b => utf8 a < utf8 b
  above : ∀ name ∈ visits.names, IsAbove start name
  /-- What was there at every request of a finished scan has come once. -/
  complete : visits.IsFinished → ∀ name, IsAbove start name →
    (∀ visit ∈ visits, visit.1.entries.contains name = true) → visits.names.count name = 1
  /-- A scan of entries that stay the same ends after as many pages as they need, and has read
  exactly those above `start`. -/
  quiet : ∀ entries, (∀ visit ∈ visits, visit.1.entries = entries) →
    pageCount limit (entries.after start).length ≤ requests →
      visits.length = pageCount limit (entries.after start).length ∧ visits.IsFinished ∧
      visits.items.map .ok = (entries.after start).map s.read ∧
      ∀ name, name ∈ visits.names ↔ IsAbove start name ∧ entries.contains name = true

theorem Pages.exact {m : Type → Type} {s : BlobStore m α} {limit gaps : Nat}
    {start : Option String} {visits : Visits α} (h : Pages s limit gaps start visits)
    (hPositive : 0 < limit) : visits.Exact s limit start gaps where
  answered := h.answered
  ascending := h.ascending
  above := h.above
  complete hFinished name hAbove hPresent := by
    have hNodup : visits.names.Nodup := h.ascending.imp fun hLt => by
      rintro rfl
      exact List.lt_irrefl _ hLt
    exact List.count_eq_one_of_mem hNodup (h.complete hFinished hAbove hPresent)
  quiet entries hQuiet hEnough := by
    obtain ⟨hLength, hFinished, hItems⟩ := h.quiet hPositive hQuiet hEnough
    refine ⟨hLength, hFinished, hItems, fun name => ⟨fun hMem => ?_, fun hName => ?_⟩⟩
    · obtain ⟨visit, hVisit, hPresent⟩ := h.present hMem
      exact ⟨h.above name hMem, hQuiet visit hVisit ▸ hPresent⟩
    · exact h.complete hFinished hName.1 fun visit hVisit => hQuiet visit hVisit ▸ hName.2

/-- Let a scan begin above `start`, with any steps of the container before its requests.  If the
codec reads all entries that are there at the times of the requests, nothing is lost or repeated:
the names ascend byte by byte from page to page, and those that are there all the time come once.
A scan with a text that is the token of no name is refused. -/
theorem scan_loses_and_repeats_nothing (s : BlobStore (StateM MemoryContainer) α)
    (hContainer : s.container = MemoryContainer.container .whole)
    (hSupported : s.capabilities.supports .list = true) (hPositive : 0 < s.config.maxPageSize)
    (options : ListOptions) (capacity : Nat) (history : List ContainerStep)
    (gaps : List (List ContainerStep)) :
    let scan := fun token => s.scan options (history :: gaps) token (.ofCapacity capacity)
    (∀ start : Option String,
      (∀ visit ∈ scan (start.map PageToken.encode), s.Readable visit.1) →
        (scan (start.map PageToken.encode)).Exact s (s.config.pageSize options.limit) start
          (gaps.length + 1)) ∧
    ∀ token, (∀ name, PageToken.encode name ≠ token) → ∃ reason,
      scan (some token) = [(ContainerStep.runAll history (.ofCapacity capacity),
        .error (.validationFailed reason))] := by
  intro scan
  refine ⟨fun start hReadable => ?_, fun token hOther => ?_⟩
  · have hPages := BlobStore.pages_scan hContainer hSupported hPositive options (history :: gaps)
      start (MemoryContainer.sound_ofCapacity capacity) hReadable
    exact hPages.exact (StoreConfig.pageSize_pos hPositive options.limit)
  · exact BlobStore.scan_of_no_token hContainer hSupported options hOther history gaps _

/-! ## A small scan -/

def Codec.verbatim : Codec Bytes := ⟨.ok, .ok, "application/octet-stream"⟩

def BlobStore.inPairs : BlobStore (StateM MemoryContainer) Bytes :=
  ⟨.organization, MemoryContainer.container .whole, .verbatim, { maxPageSize := 2 }, .all⟩

def ContainerStep.creating (name : String) : ContainerStep :=
  .write (.create ⟨name, ⟨0, 0⟩⟩ name [])

/-- The last entry of the first page is deleted after it has been given, and one is created on
either side of it: the scan goes on above the place where it was. -/
theorem scan_loses_and_repeats_nothing_in_pairs :
    let history := ["a", "c", "e", "g"].map ContainerStep.creating
    let gap := [.write (.delete "c"), .creating "b", .creating "d"]
    let visits := BlobStore.inPairs.scan { limit := some 5 } [history, gap, [], []] none
      (.ofCapacity 8)
    let quiet := BlobStore.inPairs.scan { limit := some 5 } [history, [], []] none (.ofCapacity 8)
    visits.names = ["a", "c", "d", "e", "g"] ∧
    visits.names.Pairwise (fun a b => utf8 a < utf8 b) ∧ visits.names.count "e" = 1 ∧
    quiet.length = 2 ∧ quiet.IsFinished ∧
    ∃ reason, BlobStore.inPairs.scan { limit := some 5 } [history] (some "Y=") (.ofCapacity 8) =
      [(ContainerStep.runAll history (.ofCapacity 8), .error (.validationFailed reason))] := by
  intro history gap visits quiet
  have hReadable : ∀ c, BlobStore.inPairs.Readable c := fun _ _ entry _ => ⟨entry.bytes, rfl⟩
  have hScan := fun gaps => scan_loses_and_repeats_nothing BlobStore.inPairs rfl rfl (by decide)
    { limit := some 5 } 8 history gaps
  have hVisits : visits.Exact BlobStore.inPairs 2 none 4 :=
    (hScan [gap, [], []]).1 none fun visit _ => hReadable visit.1
  have hQuiet : quiet.Exact BlobStore.inPairs 2 none 3 :=
    (hScan [[], []]).1 none fun visit _ => hReadable visit.1
  obtain ⟨hLength, hFinished, -⟩ := hQuiet.quiet
    (ContainerStep.runAll history (.ofCapacity 8)).entries (by decide +kernel) (by decide +kernel)
  have hNoToken : ∀ name, PageToken.encode name ≠ "Y=" := fun name hToken => by
    have hDecode : (PageToken.decode "Y=").toBool = false := by decide +kernel
    rw [PageToken.decode_eq_ok_iff.2 hToken] at hDecode
    cases hDecode
  refine ⟨by decide +kernel, hVisits.ascending, ?_, hLength.trans (by decide +kernel), hFinished,
    (hScan []).2 "Y=" hNoToken⟩
  exact hVisits.complete (by decide +kernel) "e" (isAbove_none "e") (by decide +kernel)

end Tenancy
