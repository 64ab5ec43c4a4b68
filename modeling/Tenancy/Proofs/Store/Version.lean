import Tenancy.Proofs.Store.ChangeLog
import Tenancy.Proofs.Store.Page

/-!
# Versions of entries

A container counts its writes, and the version of an entry is the number of the write that made it.
So the entries that were ever published have the versions 1, 2, 3, … in this order, and whatever is
shown, stored or still to be delivered is one of them: a version names one state of one entry.

* `ContainerCall`: the operations of a container and of the feeds of its changes.
* `MemoryContainer.Chronicled`: the published entries are numbered without gaps, and nothing else is
  known.
* `Effect`: all that a call can do; `ContainerCall.effect_op` says that it does one of them.
* `version_identifies_state`: what follows for any run.
-/

namespace Tenancy

/-! ## Calls and answers -/

inductive ContainerAnswer where
  | entry (entry : Entry)
  | page (page : Page Entry)
  | opened (feed : Nat)
  | received (receipt : Receipt Entry)
  | done

/-- The entries that an answer shows; a receipt shows the object of its event. -/
def ContainerAnswer.shown : ContainerAnswer → List Entry
  | .entry stored => [stored]
  | .page listed => listed.items
  | .received receipt => (receipt.event?.bind Event.object?).toList
  | .opened _ | .done => []

/-- The entries that an operation shows; one that fails shows none. -/
def shownBy : Except ContainerError ContainerAnswer → List Entry
  | .ok answer => answer.shown
  | .error _ => []

inductive ContainerCall where
  | get (name : String)
  | list (options : ListOptions)
  | create (birth : Birth) (name : String) (bytes : Bytes)
  | patch (name : String) (bytes : Bytes)
  | delete (name : String)
  | watch (options : ListOptions)
  | receive (feed : Nat)
  | cancel (feed : Nat)
  | bookmark

namespace ContainerCall

def op : ContainerCall → MemoryContainer.Op ContainerAnswer
  | .get name => .entry <$> MemoryContainer.get name
  | .list options => .page <$> MemoryContainer.list options
  | .create birth name bytes => .entry <$> MemoryContainer.create birth name bytes
  | .patch name bytes => .entry <$> MemoryContainer.patch name bytes
  | .delete name => .entry <$> MemoryContainer.delete name
  | .watch options => .opened <$> ExceptT.lift (MemoryContainer.openFeed options)
  | .receive feed => .received <$> ExceptT.lift (MemoryContainer.receive feed)
  | .cancel feed => (fun _ => .done) <$> ExceptT.lift (MemoryContainer.closeFeed feed)
  | .bookmark => (fun _ => .done) <$> modify MemoryContainer.bookmark

/-- The type of the event that a write publishes; all other calls write nothing. -/
def writes? : ContainerCall → Option EventType
  | .create .. => some .added
  | .patch .. => some .modified
  | .delete _ => some .deleted
  | _ => none

def runAll : List ContainerCall → MemoryContainer → List Entry × MemoryContainer
  | [], c => ([], c)
  | call :: calls, c =>
    let (result, c) := runOn call.op c
    let (shown, c) := runAll calls c
    (shownBy result ++ shown, c)

end ContainerCall

/-! ## What a container knows -/

theorem toString_injective {m n : Nat} (h : toString m = toString n) : m = n := by
  rw [Nat.toString_eq_ofList_toDigits, Nat.toString_eq_ofList_toDigits, String.ofList_inj] at h
  rw [← @Nat.ofDigitChars_ten_toDigits m, h, Nat.ofDigitChars_ten_toDigits]

namespace MemoryContainer

/-- The objects of all events that the container has published. -/
def history (c : MemoryContainer) : List Entry := c.bus.log.toList.filterMap Event.object?

/-- The entry is stored, or an event on the bus carries it. -/
inductive Knows (c : MemoryContainer) (entry : Entry) : Prop
  | stored (name : String) (hStored : c.entries.get? name = some entry)
  | carried (e : Event Entry) (hCarried : c.bus.Carries e) (hObject : e.object? = some entry)

/-- The entries that were published have the numbers from one up to the revision as their versions,
in this order, and the container knows no others. -/
structure Chronicled (c : MemoryContainer) : Prop where
  named : Named c.entries
  counted : c.history.map (·.version) = (List.range c.revision).map fun n => toString (n + 1)
  known : ∀ entry, c.Knows entry → entry ∈ c.history

theorem chronicled_ofCapacity (capacity : Nat) : (ofCapacity capacity).Chronicled where
  named _ _ hGet := by cases hGet
  counted := rfl
  known entry hKnows := by
    rcases hKnows with ⟨_, hGet⟩ | ⟨_, hLog | ⟨_, hFeed, _⟩, _⟩
    · cases hGet
    · cases hLog
    · cases hFeed

namespace Chronicled

variable {c : MemoryContainer} (h : c.Chronicled) {a b : Entry}

include h

/-- The versions of what was published are numbers up to the revision. -/
theorem version_of_mem (hMem : a ∈ c.history) :
    ∃ n, a.version = toString n ∧ n ≤ c.revision := by
  have hVersion : a.version ∈ c.history.map (·.version) := List.mem_map_of_mem hMem
  rw [h.counted] at hVersion
  obtain ⟨n, hRange, hEq⟩ := List.mem_map.1 hVersion
  exact ⟨n + 1, hEq.symm, List.mem_range.1 hRange⟩

theorem nodup_versions : (c.history.map (·.version)).Nodup := by
  rw [h.counted]
  exact List.nodup_range.map fun _ _ hEq => Nat.succ.inj (toString_injective hEq)

theorem eq_of_version (ha : a ∈ c.history) (hb : b ∈ c.history) (hVersion : a.version = b.version) :
    a = b :=
  List.inj_on_of_nodup_map h.nodup_versions ha hb hVersion

theorem version_ne_next (hMem : a ∈ c.history) : a.version ≠ c.nextVersion := by
  obtain ⟨n, hVersion, hLe⟩ := h.version_of_mem hMem
  intro hNext
  have hEq : n = c.revision + 1 := toString_injective (hVersion.symm.trans hNext)
  omega

end Chronicled

end MemoryContainer

/-! ## What a call does -/

/-- A write of the entry with the next version, published by an event of the type: the answer and
the container afterwards. -/
structure Stamps (c : MemoryContainer) (type : EventType) (entry : Entry) (c' : MemoryContainer) :
    Prop where
  revision : c'.revision = c.revision + 1
  version : entry.version = toString c'.revision
  published : ∃ e : Event Entry,
    c'.bus = c.bus.publish e ∧ e.type = type ∧ e.object? = some entry

/-- All that a call can do: fail without a trace, write one entry, or give what is known without a
write. -/
inductive Effect (c : MemoryContainer) :
    Option EventType → Except ContainerError ContainerAnswer × MemoryContainer → Prop
  | failed (type : Option EventType) (e : ContainerError) : Effect c type (.error e, c)
  | wrote (type : EventType) (entry : Entry) (c' : MemoryContainer)
      (hStamps : Stamps c type entry c') (hNamed : Named c'.entries)
      (hStored : ∀ name stored, c'.entries.get? name = some stored →
        stored = entry ∨ c.entries.get? name = some stored) :
      Effect c (some type) (.ok (.entry entry), c')
  | noted (answer : ContainerAnswer) (c' : MemoryContainer)
      (hRevision : c'.revision = c.revision) (hEntries : c'.entries = c.entries)
      (hHistory : c'.history = c.history) (hKnown : ∀ entry, c'.Knows entry → c.Knows entry)
      (hShown : ∀ entry ∈ answer.shown, c.Knows entry) : Effect c none (.ok answer, c')

namespace ContainerCall

variable {c : MemoryContainer}

theorem knows_of_mem_values {entry : Entry} (hMem : entry ∈ c.entries.values) :
    c.Knows entry := by
  obtain ⟨name, hStored⟩ := SortedMap.mem_values.1 hMem
  exact .stored name hStored

/-- Nothing happens but on the bus, where no event comes up that carries an unknown entry. -/
theorem effect_of_bus (answer : ContainerAnswer) (bus : ChangeBus Entry)
    (hHistory : ({ c with bus := bus } : MemoryContainer).history = c.history)
    (hBus : ∀ e, bus.Carries e → c.bus.Carries e ∨ ∀ entry ∈ e.object?, c.Knows entry)
    (hShown : ∀ entry ∈ answer.shown, c.Knows entry) :
    Effect c none (.ok answer, { c with bus := bus }) := by
  refine .noted _ _ rfl rfl hHistory (fun entry hKnows => ?_) hShown
  rcases hKnows with ⟨name, hStored⟩ | ⟨e, hCarried, hObject⟩
  · exact .stored name hStored
  · rcases hBus e hCarried with hOld | hKnown
    · exact .carried e hOld hObject
    · exact hKnown entry hObject

theorem effect_op (h : c.Chronicled) (call : ContainerCall) :
    Effect c call.writes? (runOn call.op c) := by
  cases call with
  | get name =>
    simp only [op, runOn_map, MemoryContainer.runOn_getEntry]
    cases hStored : c.entries.get? name with
    | none => exact .failed _ _
    | some entry =>
      refine .noted _ _ rfl rfl rfl (fun _ => id) fun shown hShown => ?_
      obtain rfl : shown = entry := List.mem_singleton.1 hShown
      exact .stored name hStored
  | list options =>
    rcases c.runOn_list_cases options with ⟨e, hRun⟩ | ⟨start, hRun⟩
    · simp only [op, runOn_map, hRun]
      exact .failed _ _
    · simp only [op, runOn_map, hRun]
      refine .noted _ _ rfl rfl rfl (fun _ => id) fun shown hShown => ?_
      exact knows_of_mem_values
        (SortedMap.mem_values_of_mem_after (MemoryContainer.mem_of_mem_page hShown))
  | create birth name bytes =>
    simp only [op, runOn_map, MemoryContainer.runOn_create]
    split
    · exact .failed _ _
    · exact .wrote _ (c.newEntry birth name bytes) _ ⟨rfl, rfl, _, rfl, rfl, rfl⟩
        (h.named.insert rfl) fun _ _ => SortedMap.of_get?_insert
  | patch name bytes =>
    simp only [op, runOn_map, MemoryContainer.runOn_patch]
    cases hStored : c.entries.get? name with
    | none => exact .failed _ _
    | some old =>
      exact .wrote _ (c.patchedEntry old bytes) _ ⟨rfl, rfl, _, rfl, rfl, rfl⟩
        (h.named.insert (h.named name old hStored)) fun _ _ => SortedMap.of_get?_insert
  | delete name =>
    simp only [op, runOn_map, MemoryContainer.runOn_delete]
    cases hStored : c.entries.get? name with
    | none => exact .failed _ _
    | some old =>
      exact .wrote _ (c.removedEntry old) _ ⟨rfl, rfl, _, rfl, rfl, rfl⟩
        (h.named.erase name) fun _ _ hGet => .inr (SortedMap.of_get?_erase hGet)
  | watch options =>
    refine effect_of_bus (.opened c.bus.opened) ((ChangeBus.subscribe _).run c.bus).2 rfl
      (fun e hCarried => ?_) fun _ hShown => by cases hShown
    rcases hCarried.of_subscribe with hInitial | hOld
    · right
      split at hInitial
      · obtain ⟨stored, hMem, rfl⟩ := List.mem_map.1 hInitial
        rintro entry ⟨⟩
        exact knows_of_mem_values hMem
      · cases hInitial
    · exact .inl hOld
  | receive feed =>
    refine effect_of_bus (.received ((ChangeBus.receive feed).run c.bus).1)
      ((ChangeBus.receive feed).run c.bus).2 ?_ (fun e hCarried => .inl hCarried.of_receive)
      fun entry hShown => ?_
    · exact congrArg (·.toList.filterMap Event.object?) (ChangeBus.log_receive c.bus feed)
    · obtain ⟨e, hEvent, hObject⟩ := Option.bind_eq_some_iff.1 (Option.mem_toList.1 hShown)
      exact .carried e (ChangeBus.carries_of_receive hEvent) hObject
  | cancel feed =>
    exact effect_of_bus .done (c.bus.unsubscribe feed) rfl
      (fun _ hCarried => .inl hCarried.of_unsubscribe) fun _ hShown => by cases hShown
  | bookmark =>
    refine effect_of_bus .done (c.bus.publish (.bookmark (toString c.revision))) ?_
      (fun e hCarried => ?_) fun _ hShown => by cases hShown
    · simp [MemoryContainer.history, ChangeBus.publish, Event.object?]
    · refine hCarried.of_publish.symm.imp_right ?_
      rintro rfl entry ⟨⟩

end ContainerCall

/-! ## Runs -/

/-- The history goes on from `c` to `c'`, and what a call or a run has shown is in it. -/
structure Continues (c : MemoryContainer) (shown : List Entry) (c' : MemoryContainer) : Prop where
  chronicled : c'.Chronicled
  history : c.history <+: c'.history
  shown : shown ⊆ c'.history

theorem Stamps.history {c c' : MemoryContainer} {type : EventType} {entry : Entry}
    (h : Stamps c type entry c') : c'.history = c.history ++ [entry] := by
  obtain ⟨e, hBus, -, hObject⟩ := h.published
  simp [MemoryContainer.history, hBus, ChangeBus.publish, hObject]

theorem Stamps.chronicled {c c' : MemoryContainer} {type : EventType} {entry : Entry}
    (hStamps : Stamps c type entry c') (h : c.Chronicled) (hNamed : Named c'.entries)
    (hStored : ∀ name stored, c'.entries.get? name = some stored →
      stored = entry ∨ c.entries.get? name = some stored) : c'.Chronicled where
  named := hNamed
  counted := by
    rw [hStamps.history, List.map_append, h.counted, hStamps.revision, List.range_succ,
      List.map_append, List.map_singleton, List.map_singleton, hStamps.version, hStamps.revision]
  known x hKnows := by
    have hOld : x = entry ∨ c.Knows x := by
      rcases hKnows with ⟨name, hGet⟩ | ⟨e, hCarried, hObject⟩
      · exact (hStored name x hGet).imp_right (.stored name)
      · obtain ⟨published, hBus, -, hEntry⟩ := hStamps.published
        rw [hBus] at hCarried
        rcases hCarried.of_publish with rfl | hCarried
        · exact .inl (Option.some.inj (hObject.symm.trans hEntry))
        · exact .inr (.carried e hCarried hObject)
    rw [hStamps.history, List.mem_append, List.mem_singleton]
    exact hOld.symm.imp_left (h.known x)

theorem Effect.continues {c c' : MemoryContainer} {type : Option EventType}
    {result : Except ContainerError ContainerAnswer} (hEffect : Effect c type (result, c'))
    (h : c.Chronicled) : Continues c (shownBy result) c' := by
  cases hEffect with
  | failed e => exact ⟨h, List.prefix_rfl, List.nil_subset _⟩
  | wrote type entry _ hStamps hNamed hStored =>
    refine ⟨hStamps.chronicled h hNamed hStored, ?_, ?_⟩
    · exact hStamps.history ▸ List.prefix_append _ _
    · exact hStamps.history ▸ List.subset_append_right _ _
  | noted answer _ hRevision hEntries hHistory hKnown hShown =>
    refine ⟨⟨?_, ?_, fun entry hKnows => ?_⟩, ?_, fun entry hMem => ?_⟩
    · exact hEntries ▸ h.named
    · rw [hHistory, hRevision, h.counted]
    · exact hHistory ▸ h.known entry (hKnown entry hKnows)
    · exact hHistory ▸ List.prefix_rfl
    · exact hHistory ▸ h.known entry (hShown entry hMem)

theorem ContainerCall.continues_runAll {c : MemoryContainer} (h : c.Chronicled)
    (calls : List ContainerCall) : Continues c (runAll calls c).1 (runAll calls c).2 := by
  induction calls generalizing c with
  | nil => exact ⟨h, List.prefix_rfl, List.nil_subset _⟩
  | cons call calls ih =>
    have hStep := (effect_op h call).continues h
    have hRest := ih hStep.chronicled
    refine ⟨hRest.chronicled, hStep.history.trans hRest.history, fun entry hMem => ?_⟩
    rcases List.mem_append.1 hMem with hFirst | hLater
    · exact hRest.history.subset (hStep.shown hFirst)
    · exact hRest.shown hLater

/-- In every run of a container and of the feeds of its changes:

* a write that succeeds advances the revision by one and stamps the entry that it answers and
  publishes with it, a version that nothing before has had;
* every other call, and every call that fails, leaves the revision as it is;
* the stored entries have different versions, which are numbers up to the revision;
* two entries with one version, wherever they were shown or published or wait to be, are one. -/
theorem version_identifies_state (capacity : Nat) (calls : List ContainerCall)
    {shown : List Entry} {c : MemoryContainer}
    (hRun : ContainerCall.runAll calls (.ofCapacity capacity) = (shown, c)) :
    (∀ (call : ContainerCall) (answer : ContainerAnswer) (c' : MemoryContainer),
      runOn call.op c = (.ok answer, c') → ∀ type ∈ call.writes?,
        ∃ entry, answer = .entry entry ∧ Stamps c type entry c' ∧
          ∀ old ∈ shown, old.version ≠ entry.version) ∧
    (∀ (call : ContainerCall) (result : Except ContainerError ContainerAnswer)
        (c' : MemoryContainer), runOn call.op c = (result, c') →
      call.writes? = none ∨ problem? result ≠ none → c'.revision = c.revision) ∧
    (∀ name entry, c.entries.get? name = some entry →
      ∃ n, entry.version = toString n ∧ n ≤ c.revision) ∧
    (∀ name name' entry entry', c.entries.get? name = some entry →
      c.entries.get? name' = some entry' → entry.version = entry'.version → name = name') ∧
    ∀ a b, a ∈ shown ∨ c.Knows a → b ∈ shown ∨ c.Knows b → a.version = b.version → a = b := by
  have hContinues := ContainerCall.continues_runAll
    (MemoryContainer.chronicled_ofCapacity capacity) calls
  rw [hRun] at hContinues
  have h : c.Chronicled := hContinues.chronicled
  have hStored : ∀ {name entry}, c.entries.get? name = some entry → entry ∈ c.history :=
    fun hGet => h.known _ (.stored _ hGet)
  have hMem : ∀ a, a ∈ shown ∨ c.Knows a → a ∈ c.history := fun a =>
    Or.rec (hContinues.shown ·) (h.known a)
  refine ⟨fun call answer c' hCall type hType => ?_, fun call result c' hCall hNone => ?_,
    fun name entry hGet => h.version_of_mem (hStored hGet),
    fun name name' entry entry' hGet hGet' hVersion => ?_,
    fun a b ha hb => h.eq_of_version (hMem a ha) (hMem b hb)⟩
  · have hEffect := ContainerCall.effect_op h call
    rw [hCall, Option.mem_def.1 hType] at hEffect
    cases hEffect with
    | wrote type entry _ hStamps =>
      refine ⟨entry, rfl, hStamps, fun old hOld hVersion => ?_⟩
      refine h.version_ne_next (hContinues.shown hOld) (hVersion.trans ?_)
      rw [hStamps.version, hStamps.revision, MemoryContainer.nextVersion]
  · have hEffect := ContainerCall.effect_op h call
    rw [hCall] at hEffect
    generalize call.writes? = type at hEffect hNone
    cases hEffect with
    | failed => rfl
    | wrote => simp at hNone
    | noted _ _ hRevision => exact hRevision
  · rw [← h.named name entry hGet, ← h.named name' entry' hGet',
      h.eq_of_version (hStored hGet) (hStored hGet') hVersion]

/-- A name is taken, removed and taken again; two writes fail, and a feed that was opened in
between falls behind. -/
def ContainerCall.retaken : List ContainerCall :=
  let birth : Birth := ⟨"1", ⟨0, 0⟩⟩
  [.create birth "a" [1], .create birth "a" [2], .watch { sendInitialEvents := true },
    .patch "a" [2], .get "a", .delete "a", .patch "a" [3], .create birth "a" [1], .bookmark,
    .list {}, .receive 0, .receive 0, .receive 0, .cancel 0]

theorem version_identifies_state_retaken :
    let run := ContainerCall.runAll ContainerCall.retaken (.ofCapacity 2)
    run.1.map (·.version) = ["1", "2", "2", "3", "4", "4", "1", "4"] ∧
    (∀ a ∈ run.1, ∀ b ∈ run.1, a.version = b.version → a = b) ∧
    ∃ entry c, runOn (ContainerCall.patch "a" [1]).op run.2 = (.ok (.entry entry), c) ∧
      c.revision = run.2.revision + 1 ∧ ∀ old ∈ run.1, old.version ≠ entry.version := by
  intro run
  have hRun : ContainerCall.runAll ContainerCall.retaken (.ofCapacity 2) = (run.1, run.2) := rfl
  obtain ⟨hWrites, -, -, -, hOne⟩ := version_identifies_state 2 ContainerCall.retaken hRun
  refine ⟨by decide +kernel, fun a ha b hb => hOne a b (.inl ha) (.inl hb), ?_⟩
  have hSucceeds : problem? (runOn (ContainerCall.patch "a" [1]).op run.2).1 = none := by
    decide +kernel
  rcases hCall : runOn (ContainerCall.patch "a" [1]).op run.2 with ⟨e | answer, c⟩
  · rw [hCall] at hSucceeds
    cases hSucceeds
  · obtain ⟨entry, rfl, hStamps, hNew⟩ := hWrites _ answer c hCall .modified rfl
    exact ⟨entry, c, rfl, hStamps.revision, hNew⟩

end Tenancy
