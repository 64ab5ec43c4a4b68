import Tenancy.Proofs.Feed.Bus
import Tenancy.Proofs.Store.MemoryContainer
import Tenancy.Proofs.Store.Replay

/-!
# The log of a container

Every successful write of a container publishes exactly one event, and a write that fails publishes
none.  So what is published between two states of a container turns the entries of the one into
those of the other, under versions that count the writes.

* `Grows`: what is published on the way from one container to a later one.
* `ContainerStep.grows_run`: it holds of every run.
-/

namespace Tenancy

/-! ## Versions of events -/

def Event.stamp? : Event Entry → Option String
  | .added entry | .modified entry | .deleted entry => some entry.version
  | .bookmark version => some version
  | .error _ => none

/-- The event carries a number as its version, above `low` or, if the event is about no object, at
least `low`. -/
def Stamped (low high : Nat) (e : Event Entry) : Prop :=
  ∃ n : Nat, e.stamp? = some (toString n) ∧ n ≤ high ∧ if e.isOutOfBand then low ≤ n else low < n

/-- The later event has the higher version; the version of a bookmark may be the same. -/
def Precedes (earlier later : Event Entry) : Prop :=
  ∃ m n : Nat, earlier.stamp? = some (toString m) ∧ later.stamp? = some (toString n) ∧
    if later.isOutOfBand then m ≤ n else m < n

theorem Stamped.mono {low low' high high' : Nat} {e : Event Entry} (h : Stamped low high e)
    (hLow : low' ≤ low) (hHigh : high ≤ high') : Stamped low' high' e := by
  obtain ⟨n, hStamp, hLe, hOrder⟩ := h
  refine ⟨n, hStamp, Nat.le_trans hLe hHigh, ?_⟩
  cases hOut : e.isOutOfBand <;>
    simp only [hOut, Bool.false_eq_true, if_false, if_true] at hOrder ⊢ <;> omega

theorem Stamped.precedes {low middle high : Nat} {e e' : Event Entry} (h : Stamped low middle e)
    (h' : Stamped middle high e') : Precedes e e' := by
  obtain ⟨m, hStamp, hLe, -⟩ := h
  obtain ⟨n, hStamp', -, hOrder⟩ := h'
  refine ⟨m, n, hStamp, hStamp', ?_⟩
  cases hOut : e'.isOutOfBand <;>
    simp only [hOut, Bool.false_eq_true, if_false, if_true] at hOrder ⊢ <;> omega

/-! ## What is published between two states -/

/-- The events `events` were published on the way from the container `c` to `c'`. -/
structure Grows (c : MemoryContainer) (events : List (Event Entry)) (c' : MemoryContainer) :
    Prop where
  log : c'.bus.log.toList = c.bus.log.toList ++ events
  replays : replay c.entries events = some c'.entries
  revision_le : c.revision ≤ c'.revision
  stamped : ∀ e ∈ events, Stamped c.revision c'.revision e
  ordered : events.Pairwise Precedes

namespace Grows

theorem refl (c : MemoryContainer) : Grows c [] c where
  log := (List.append_nil _).symm
  replays := rfl
  revision_le := Nat.le_refl _
  stamped _ hMem := by cases hMem
  ordered := .nil

/-- Only entries, revision and log count. -/
theorem of_eq {c c' : MemoryContainer} (hEntries : c'.entries = c.entries)
    (hRevision : c'.revision = c.revision) (hLog : c'.bus.log = c.bus.log) : Grows c [] c' where
  log := by rw [hLog, List.append_nil]
  replays := by rw [hEntries, replay_nil]
  revision_le := Nat.le_of_eq hRevision.symm
  stamped _ hMem := by cases hMem
  ordered := .nil

theorem single {c c' : MemoryContainer} {e : Event Entry} (hLog : c'.bus = c.bus.publish e)
    (hReplay : replayEvent c.entries e = some c'.entries) (hRevision : c.revision ≤ c'.revision)
    (hStamped : Stamped c.revision c'.revision e) : Grows c [e] c' where
  log := by rw [hLog, ChangeBus.publish, Array.toList_push]
  replays := by rw [replay_cons, hReplay]; rfl
  revision_le := hRevision
  stamped e' hMem := by
    obtain rfl := List.mem_singleton.1 hMem
    exact hStamped
  ordered := List.pairwise_singleton ..

theorem trans {c c' c'' : MemoryContainer} {first second : List (Event Entry)}
    (h : Grows c first c') (h' : Grows c' second c'') : Grows c (first ++ second) c'' where
  log := by rw [h'.log, h.log, List.append_assoc]
  replays := by rw [replay_append, h.replays, Option.bind_some, h'.replays]
  revision_le := Nat.le_trans h.revision_le h'.revision_le
  stamped e hMem := by
    rcases List.mem_append.1 hMem with hFirst | hSecond
    · exact (h.stamped e hFirst).mono (Nat.le_refl _) h'.revision_le
    · exact (h'.stamped e hSecond).mono h.revision_le (Nat.le_refl _)
  ordered := by
    refine List.pairwise_append.2 ⟨h.ordered, h'.ordered, fun e hFirst e' hSecond => ?_⟩
    exact (h.stamped e hFirst).precedes (h'.stamped e' hSecond)

end Grows

/-! ## Steps -/

/-- A write of a container, or the publication of a bookmark. -/
inductive ContainerWrite where
  | create (birth : Birth) (name : String) (bytes : Bytes)
  | patch (name : String) (bytes : Bytes)
  | delete (name : String)
  | bookmark

def ContainerWrite.run : ContainerWrite → MemoryContainer.Op Unit
  | .create birth name bytes => do let _ ← MemoryContainer.create birth name bytes
  | .patch name bytes => do let _ ← MemoryContainer.patch name bytes
  | .delete name => do let _ ← MemoryContainer.delete name
  | .bookmark => modify MemoryContainer.bookmark

inductive ContainerStep where
  | write (w : ContainerWrite)
  | watch (options : ListOptions)
  | receive (feed : Nat)
  | cancel (feed : Nat)

namespace ContainerStep

def run : ContainerStep → MemoryContainer → MemoryContainer
  | .write w, c => (runOn w.run c).2
  | .watch options, c => ((MemoryContainer.openFeed options).run c).2
  | .receive feed, c => ((MemoryContainer.receive feed).run c).2
  | .cancel feed, c => ((MemoryContainer.closeFeed feed).run c).2

def runAll (steps : List ContainerStep) (c : MemoryContainer) : MemoryContainer :=
  steps.foldl (fun c step => step.run c) c

end ContainerStep

/-- Entries are stored under their own names with versions that are numbers up to the revision, and
the feeds of the bus are numbered as they were opened. -/
structure MemoryContainer.Sound (c : MemoryContainer) : Prop where
  named : Named c.entries
  versioned : ∀ name entry, c.entries.get? name = some entry →
    ∃ n, entry.version = toString n ∧ n ≤ c.revision
  numbered : c.bus.WellNumbered

namespace MemoryContainer

theorem sound_ofCapacity (capacity : Nat) : (ofCapacity capacity).Sound where
  named _ _ hGet := by cases hGet
  versioned _ _ hGet := by cases hGet
  numbered := ChangeBus.wellNumbered_ofCapacity capacity

variable {c : MemoryContainer}

/-- A write that stores an entry with the next version. -/
theorem Sound.insert (h : c.Sound) {name : String} {entry : Entry} (e : Event Entry)
    (hName : entry.name = name) (hVersion : entry.version = c.nextVersion) :
    (c.commit (c.entries.insert name entry) e).Sound where
  named := h.named.insert hName
  versioned other stored hGet := by
    by_cases hOther : other = name
    · subst hOther
      obtain rfl : entry = stored := by simpa using hGet
      exact ⟨c.revision + 1, hVersion, Nat.le_refl _⟩
    · rw [commit_entries, SortedMap.get?_insert_of_ne hOther] at hGet
      obtain ⟨n, hStored, hLe⟩ := h.versioned other stored hGet
      exact ⟨n, hStored, Nat.le_succ_of_le hLe⟩
  numbered := h.numbered

theorem Sound.erase (h : c.Sound) (name : String) (e : Event Entry) :
    (c.commit (c.entries.erase name) e).Sound where
  named := h.named.erase name
  versioned other stored hGet := by
    rw [commit_entries, SortedMap.get?_erase] at hGet
    split at hGet
    · cases hGet
    · obtain ⟨n, hStored, hLe⟩ := h.versioned other stored hGet
      exact ⟨n, hStored, Nat.le_succ_of_le hLe⟩
  numbered := h.numbered

end MemoryContainer

namespace ContainerWrite

/-- The ends of a write: it fails and changes nothing, or it publishes one event. -/
inductive Outcome (c : MemoryContainer) : Except ContainerError Unit × MemoryContainer → Prop
  | failed (e : ContainerError) : Outcome c (.error e, c)
  | published (c' : MemoryContainer) (e : Event Entry) (hBus : c'.bus = c.bus.publish e)
      (hGrows : Grows c [e] c') (hSound : c'.Sound) : Outcome c (.ok (), c')

variable {c : MemoryContainer} (hSound : c.Sound)

include hSound

theorem outcome_create (birth : Birth) (name : String) (bytes : Bytes) :
    Outcome c (runOn (ContainerWrite.create birth name bytes).run c) := by
  simp only [run, bind_pure_comp, runOn_map, MemoryContainer.runOn_create]
  cases hStored : c.entries.contains name with
  | true => exact .failed _
  | false =>
    refine .published _ (.added (c.newEntry birth name bytes)) rfl (.single rfl ?_ ?_ ?_) ?_
    · exact if_neg (by simpa [MemoryContainer.newEntry] using hStored)
    · exact Nat.le_succ _
    · exact ⟨c.revision + 1, rfl, Nat.le_refl _, Nat.lt_succ_self _⟩
    · exact hSound.insert _ rfl rfl

theorem outcome_patch (name : String) (bytes : Bytes) :
    Outcome c (runOn (ContainerWrite.patch name bytes).run c) := by
  simp only [run, bind_pure_comp, runOn_map, MemoryContainer.runOn_patch]
  cases hStored : c.entries.get? name with
  | none => exact .failed _
  | some old =>
    have hName : old.name = name := hSound.named name old hStored
    refine .published _ (.modified (c.patchedEntry old bytes)) rfl (.single rfl ?_ ?_ ?_) ?_
    · have hPresent : c.entries.contains (c.patchedEntry old bytes).name = true :=
        SortedMap.contains_iff.2 ⟨old, by rwa [MemoryContainer.patchedEntry, hName]⟩
      rw [replayEvent, if_pos hPresent, MemoryContainer.afterPatch_entries,
        MemoryContainer.patchedEntry, hName]
    · exact Nat.le_succ _
    · exact ⟨c.revision + 1, rfl, Nat.le_refl _, Nat.lt_succ_self _⟩
    · exact hSound.insert _ hName rfl

theorem outcome_delete (name : String) :
    Outcome c (runOn (ContainerWrite.delete name).run c) := by
  simp only [run, bind_pure_comp, runOn_map, MemoryContainer.runOn_delete]
  cases hStored : c.entries.get? name with
  | none => exact .failed _
  | some old =>
    have hName : old.name = name := hSound.named name old hStored
    refine .published _ (.deleted (c.removedEntry old)) rfl (.single rfl ?_ ?_ ?_) ?_
    · have hPresent : c.entries.contains (c.removedEntry old).name = true :=
        SortedMap.contains_iff.2 ⟨old, by rwa [MemoryContainer.removedEntry, hName]⟩
      rw [replayEvent, if_pos hPresent, MemoryContainer.afterDelete_entries,
        MemoryContainer.removedEntry, hName]
    · exact Nat.le_succ _
    · exact ⟨c.revision + 1, rfl, Nat.le_refl _, Nat.lt_succ_self _⟩
    · exact hSound.erase name _

theorem outcome_run (w : ContainerWrite) : Outcome c (runOn w.run c) := by
  cases w with
  | create birth name bytes => exact outcome_create hSound birth name bytes
  | patch name bytes => exact outcome_patch hSound name bytes
  | delete name => exact outcome_delete hSound name
  | bookmark =>
    refine .published _ (.bookmark (toString c.revision)) rfl (.single rfl rfl ?_ ?_) ?_
    · exact Nat.le_refl _
    · exact ⟨c.revision, rfl, Nat.le_refl _, Nat.le_refl _⟩
    · exact ⟨hSound.named, hSound.versioned, hSound.numbered⟩

end ContainerWrite

namespace ContainerStep

theorem grows_step {c : MemoryContainer} (hSound : c.Sound) (step : ContainerStep) :
    (step.run c).Sound ∧ ∃ events, Grows c events (step.run c) := by
  cases step with
  | write w =>
    have hOutcome := ContainerWrite.outcome_run hSound w
    simp only [run]
    generalize runOn w.run c = outcome at hOutcome
    cases hOutcome with
    | failed e => exact ⟨hSound, [], .refl c⟩
    | published c' e _ hGrows hSound => exact ⟨hSound, [e], hGrows⟩
  | watch options =>
    refine ⟨⟨hSound.named, hSound.versioned, ?_⟩, [], .of_eq rfl rfl rfl⟩
    exact hSound.numbered.subscribe _
  | receive feed =>
    refine ⟨⟨hSound.named, hSound.versioned, ?_⟩, [], .of_eq rfl rfl ?_⟩
    · exact hSound.numbered.receive feed
    · exact ChangeBus.log_receive c.bus feed
  | cancel feed =>
    refine ⟨⟨hSound.named, hSound.versioned, ?_⟩, [], .of_eq rfl rfl rfl⟩
    exact hSound.numbered.unsubscribe feed

theorem grows_run {c : MemoryContainer} (hSound : c.Sound) (steps : List ContainerStep) :
    (runAll steps c).Sound ∧ ∃ events, Grows c events (runAll steps c) := by
  induction steps generalizing c with
  | nil => exact ⟨hSound, [], .refl c⟩
  | cons step steps ih =>
    obtain ⟨hStep, first, hFirst⟩ := grows_step hSound step
    obtain ⟨hRun, rest, hRest⟩ := ih hStep
    exact ⟨hRun, first ++ rest, hFirst.trans hRest⟩

end ContainerStep

end Tenancy
