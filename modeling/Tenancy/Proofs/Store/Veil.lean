import Tenancy.Proofs.Feed.Lockstep
import Tenancy.Proofs.Store.WatchStream

/-!
# Containers that differ in one entry

Two containers have the same entries but for one, which has another name and other bytes in each of
them, and is read alike in both.  Whatever is written to the other names, and to this entry under
its name, the containers go on differing in the same way, and so do the events that they publish.
Where entries are counted in the order of their names, on pages and at the beginning of a feed, the
two names have to stand at one place among the others.

* `Veil`: the two names of the entry, and the names of all others.
* `ContainerStep.Alike.run`, `ContainerStep.alike_runAll`: steps of both containers.
* `MemoryContainer.list_matches`: one page of both.
-/

namespace Tenancy

open KeyOrder (before)

variable {α : Type}

/-! ## Names -/

/-- The name of an entry in two runs, and the names that mean the same in both. -/
structure Veil where
  hidden : String
  hidden' : String
  known : String → Prop
  hidden_unknown : ¬ known hidden
  hidden'_unknown : ¬ known hidden'

namespace Veil

variable {v : Veil} {name name' other other' : String}

inductive Name (v : Veil) : String → String → Prop
  | known {name : String} (h : v.known name) : Name v name name
  | hidden : Name v v.hidden v.hidden'

/-- The two names of the entry stand at one place among the others. -/
def InPlace (v : Veil) : Prop := ∀ name, v.known name → before name v.hidden = before name v.hidden'

theorem Name.eq_iff (h : v.Name name name') (hOther : v.Name other other') :
    name = other ↔ name' = other' := by
  cases h with
  | known hName =>
    cases hOther with
    | known => exact Iff.rfl
    | hidden =>
      exact ⟨fun h => absurd (h ▸ hName) v.hidden_unknown,
        fun h => absurd (h ▸ hName) v.hidden'_unknown⟩
  | hidden =>
    cases hOther with
    | known hOther =>
      exact ⟨fun h => absurd (h ▸ hOther) v.hidden_unknown,
        fun h => absurd (h ▸ hOther) v.hidden'_unknown⟩
    | hidden => exact ⟨fun _ => rfl, fun _ => rfl⟩

theorem Name.before_eq (hPlace : v.InPlace) (h : v.Name name name')
    (hOther : v.Name other other') : before name other = before name' other' := by
  cases h with
  | known hName =>
    cases hOther with
    | known => rfl
    | hidden => exact hPlace name hName
  | hidden =>
    cases hOther with
    | known hOther =>
      have hNe : v.hidden ≠ other := fun h => v.hidden_unknown (h ▸ hOther)
      have hNe' : v.hidden' ≠ other := fun h => v.hidden'_unknown (h ▸ hOther)
      rw [KeyOrder.before_of_ne hNe, KeyOrder.before_of_ne hNe', hPlace other hOther]
    | hidden => rw [KeyOrder.before_self, KeyOrder.before_self]

end Veil

/-! ## Entries -/

def Codec.Reads (codec : Codec α) (bytes : Bytes) : Prop :=
  ∃ payload, codec.decode bytes = .ok payload

/-- The bytes of one entry in the two runs, with its names.  Where they differ they are read in both
runs, or the reading fails in the same way and the entry has the same name. -/
inductive Veil.Content (v : Veil) (codec : Codec α) : String → Bytes → String → Bytes → Prop
  | known {name : String} (h : v.known name) (bytes : Bytes) : Content v codec name bytes name bytes
  | hidden {bytes bytes' : Bytes} (h : codec.Reads bytes) (h' : codec.Reads bytes') :
      Content v codec v.hidden bytes v.hidden' bytes'
  | unread {bytes bytes' : Bytes} {fault fault' : CodecError} (hName : v.hidden = v.hidden')
      (h : codec.decode bytes = .error fault) (h' : codec.decode bytes' = .error fault')
      (hFault : fault.message = fault'.message) :
      Content v codec v.hidden bytes v.hidden' bytes'

variable {v : Veil} {codec : Codec α} {name name' : String} {bytes bytes' : Bytes}

theorem Veil.Content.names (h : v.Content codec name bytes name' bytes') : v.Name name name' := by
  cases h with
  | known hName => exact .known hName
  | hidden => exact .hidden
  | unread => exact .hidden

structure Entry.Alike (v : Veil) (codec : Codec α) (e e' : Entry) : Prop where
  content : v.Content codec e.name e.bytes e'.name e'.bytes
  uid : e.uid = e'.uid
  creationTime : e.creationTime = e'.creationTime
  version : e.version = e'.version

inductive Resource.Alike (v : Veil) : Resource α → Resource α → Prop
  | known {r : Resource α} (h : v.known r.name) : Alike v r r
  | hidden {r r' : Resource α} (h : r.name = v.hidden) (h' : r'.name = v.hidden') : Alike v r r'

section

variable {m : Type → Type} {s : BlobStore m α} {e e' : Entry}

/-- The reading of an entry comes to one error in both runs, or to one resource. -/
theorem Entry.Alike.read (h : Entry.Alike v s.codec e e') :
    Agree (Resource.Alike v) (s.read e) (s.read e') := by
  obtain ⟨name, bytes, uid, time, version⟩ := e
  obtain ⟨name', bytes', _, _, _⟩ := e'
  obtain ⟨hContent, rfl, rfl, rfl⟩ := h
  cases hContent with
  | known hName =>
    cases hRead : s.read ⟨name, bytes, uid, time, version⟩ with
    | error fault => exact .error fault
    | ok r =>
      have hSame : r.name = name := BlobStore.read_name hRead
      exact .ok (.known (hSame ▸ hName))
  | hidden hReads hReads' =>
    obtain ⟨payload, hDecode⟩ := hReads
    obtain ⟨payload', hDecode'⟩ := hReads'
    have hRead : s.read ⟨v.hidden, bytes, uid, time, version⟩ = .ok _ :=
      BlobStore.read_eq_ok_iff.2 ⟨payload, hDecode, rfl⟩
    have hRead' : s.read ⟨v.hidden', bytes', uid, time, version⟩ = .ok _ :=
      BlobStore.read_eq_ok_iff.2 ⟨payload', hDecode', rfl⟩
    rw [hRead, hRead']
    exact .ok (.hidden rfl rfl)
  | unread hName hDecode hDecode' hFault =>
    rw [BlobStore.read_eq_error hDecode, BlobStore.read_eq_error hDecode']
    simp only [hName, hFault]
    exact .error _

theorem Event.Alike.shown {e e' : Event Entry} (h : e.Alike (Entry.Alike v s.codec) e') :
    (s.shown e).Alike (Resource.Alike v) (s.shown e') := by
  have hRead := h.mapM fun _ _ hEntry => Entry.Alike.read hEntry
  rw [BlobStore.shown, BlobStore.shown]
  generalize e.mapM s.read = read, e'.mapM s.read = read' at hRead
  cases hRead with
  | error fault => exact .error _
  | ok hEvent => exact hEvent

theorem Receipt.Alike.taken {receipt receipt' : Receipt Entry}
    (h : receipt.Alike (Event.Alike (Entry.Alike v s.codec)) receipt') :
    (s.taken receipt).Alike (Event.Alike (Resource.Alike v)) (s.taken receipt') := by
  cases h with
  | event hEvent =>
    rw [s.taken_event, s.taken_event]
    exact .event hEvent.shown
  | lagged missed => exact .last (.error _)
  | pending => exact .pending
  | closed => exact .ended

end

/-! ## Containers -/

/-- The containers differ in the name and the bytes of one entry, and so do their events. -/
structure MemoryContainer.Alike (v : Veil) (codec : Codec α) (c c' : MemoryContainer) : Prop where
  entries : ∀ {name name' : String}, v.Name name name' →
    Option.Rel (fun e e' => e.name = name ∧ e.Alike v codec e') (c.entries.get? name)
      (c'.entries.get? name')
  named : ∀ name, c.entries.contains name = true → ∃ name', v.Name name name'
  named' : ∀ name', c'.entries.contains name' = true → ∃ name, v.Name name name'
  revision : c.revision = c'.revision
  bus : c.bus.Alike (Event.Alike (Entry.Alike v codec)) c'.bus

theorem MemoryContainer.Alike.ofCapacity (v : Veil) (codec : Codec α) (capacity : Nat) :
    (MemoryContainer.ofCapacity capacity).Alike v codec (.ofCapacity capacity) where
  entries _ := .none
  named _ hStored := by cases hStored
  named' _ hStored := by cases hStored
  revision := rfl
  bus := ⟨rfl, .nil, .nil, rfl, rfl⟩

namespace MemoryContainer.Alike

variable {c c' : MemoryContainer} {e e' : Entry} {feed : Nat}

theorem nextVersion (h : c.Alike v codec c') : c.nextVersion = c'.nextVersion := by
  rw [MemoryContainer.nextVersion, MemoryContainer.nextVersion, h.revision]

/-- Both containers set the entry of a name. -/
theorem insert (h : c.Alike v codec c') (hName : e.name = name) (hEntry : e.Alike v codec e')
    (hKey : v.Name name name') {event event' : Event Entry}
    (hEvent : event.Alike (Entry.Alike v codec) event') :
    (c.commit (c.entries.insert name e) event).Alike v codec
      (c'.commit (c'.entries.insert name' e') event') where
  entries {other other'} hOther := by
    rw [commit_entries, commit_entries, SortedMap.get?_insert, SortedMap.get?_insert]
    by_cases hEq : other = name
    · rw [if_pos hEq, if_pos ((hOther.eq_iff hKey).1 hEq)]
      exact .some ⟨hName.trans hEq.symm, hEntry⟩
    · rw [if_neg hEq, if_neg (mt (hOther.eq_iff hKey).2 hEq)]
      exact h.entries hOther
  named other hStored := by
    rcases SortedMap.contains_insert_iff.1 hStored with rfl | hOther
    · exact ⟨name', hKey⟩
    · exact h.named other hOther
  named' other hStored := by
    rcases SortedMap.contains_insert_iff.1 hStored with rfl | hOther
    · exact ⟨name, hKey⟩
    · exact h.named' other hOther
  revision := congrArg (· + 1) h.revision
  bus := h.bus.publish hEvent

/-- Both containers remove the entry of a name. -/
theorem erase (h : c.Alike v codec c') (hKey : v.Name name name') {event event' : Event Entry}
    (hEvent : event.Alike (Entry.Alike v codec) event') :
    (c.commit (c.entries.erase name) event).Alike v codec
      (c'.commit (c'.entries.erase name') event') where
  entries {other other'} hOther := by
    rw [commit_entries, commit_entries, SortedMap.get?_erase, SortedMap.get?_erase]
    by_cases hEq : other = name
    · rw [if_pos hEq, if_pos ((hOther.eq_iff hKey).1 hEq)]
      exact .none
    · rw [if_neg hEq, if_neg (mt (hOther.eq_iff hKey).2 hEq)]
      exact h.entries hOther
  named other hStored := h.named other (SortedMap.contains_erase_iff.1 hStored).2
  named' other hStored := h.named' other (SortedMap.contains_erase_iff.1 hStored).2
  revision := congrArg (· + 1) h.revision
  bus := h.bus.publish hEvent

/-- The entry of a name in both containers. -/
theorem stored (h : c.Alike v codec c') (hKey : v.Name name name') :
    (c.entries.get? name = none ∧ c'.entries.get? name' = none) ∨
      ∃ e e', c.entries.get? name = some e ∧ c'.entries.get? name' = some e' ∧ e.name = name ∧
        e.Alike v codec e' := by
  have hEntry := h.entries hKey
  generalize c.entries.get? name = found, c'.entries.get? name' = found' at hEntry
  cases hEntry with
  | none => exact .inl ⟨rfl, rfl⟩
  | some hStored => exact .inr ⟨_, _, rfl, rfl, hStored⟩

theorem create (h : c.Alike v codec c') (hContent : v.Content codec name bytes name' bytes')
    (birth : Birth) :
    (runOn (MemoryContainer.create birth name bytes) c).2.Alike v codec
      (runOn (MemoryContainer.create birth name' bytes') c').2 := by
  rw [runOn_create, runOn_create]
  have hEntry : (c.newEntry birth name bytes).Alike v codec (c'.newEntry birth name' bytes') :=
    ⟨hContent, rfl, rfl, h.nextVersion⟩
  rcases h.stored hContent.names with ⟨hNone, hNone'⟩ | ⟨e, e', hSome, hSome', -⟩
  · rw [SortedMap.contains_eq_false_iff.2 hNone, SortedMap.contains_eq_false_iff.2 hNone']
    exact h.insert rfl hEntry hContent.names (.added hEntry)
  · rw [SortedMap.contains_iff.2 ⟨e, hSome⟩, SortedMap.contains_iff.2 ⟨e', hSome'⟩]
    exact h

theorem patch (h : c.Alike v codec c') (hContent : v.Content codec name bytes name' bytes') :
    (runOn (MemoryContainer.patch name bytes) c).2.Alike v codec
      (runOn (MemoryContainer.patch name' bytes') c').2 := by
  rw [runOn_patch, runOn_patch]
  rcases h.stored hContent.names with ⟨hNone, hNone'⟩ | ⟨e, e', hSome, hSome', hName, hOld⟩
  · rw [hNone, hNone']
    exact h
  · rw [hSome, hSome']
    have hName' : e'.name = name' :=
      ((hOld.content.names.eq_iff hContent.names).1 hName)
    have hEntry : (c.patchedEntry e bytes).Alike v codec (c'.patchedEntry e' bytes') := by
      refine ⟨?_, hOld.uid, hOld.creationTime, h.nextVersion⟩
      rw [patchedEntry, patchedEntry, hName, hName']
      exact hContent
    have hKept : (c.patchedEntry e bytes).name = name := hName
    exact h.insert hKept hEntry hContent.names (.modified hEntry)

theorem delete (h : c.Alike v codec c') (hKey : v.Name name name') :
    (runOn (MemoryContainer.delete name) c).2.Alike v codec
      (runOn (MemoryContainer.delete name') c').2 := by
  rw [runOn_delete, runOn_delete]
  rcases h.stored hKey with ⟨hNone, hNone'⟩ | ⟨e, e', hSome, hSome', -, hOld⟩
  · rw [hNone, hNone']
    exact h
  · rw [hSome, hSome']
    exact h.erase hKey (.deleted ⟨hOld.content, hOld.uid, hOld.creationTime, h.nextVersion⟩)

theorem bookmark (h : c.Alike v codec c') :
    c.bookmark.Alike v codec c'.bookmark where
  entries := h.entries
  named := h.named
  named' := h.named'
  revision := h.revision
  bus := h.bus.publish (h.revision ▸ .bookmark _)

/-- The entries of both containers in the order of their names. -/
theorem forall₂_entries (h : c.Alike v codec c') (hPlace : v.InPlace) :
    List.Forall₂ (fun a a' => v.Name a.1 a'.1 ∧ a.2.Alike v codec a'.2) c.entries.toList
      c'.entries.toList := by
  refine SortedMap.forall₂_toList (Veil.Name.before_eq hPlace) (fun hKey => ?_) h.named h.named'
  rcases h.stored hKey with ⟨hNone, hNone'⟩ | ⟨e, e', hSome, hSome', -, hEntry⟩
  · rw [hNone, hNone']
    exact .none
  · rw [hSome, hSome']
    exact .some hEntry

theorem forall₂_after (h : c.Alike v codec c') (hPlace : v.InPlace)
    {start start' : Option String} (hStart : Option.Rel v.Name start start') :
    List.Forall₂ (Entry.Alike v codec) (c.entries.after start) (c'.entries.after start') := by
  cases hStart with
  | none => exact List.rel_map (fun _ _ hEntry => hEntry.2) (h.forall₂_entries hPlace)
  | some hKey =>
    refine List.rel_map (fun _ _ hEntry => hEntry.2) (List.rel_filter ?_ (h.forall₂_entries hPlace))
    intro a a' hEntry
    simp only [hKey.before_eq hPlace hEntry.1]

theorem openFeed (h : c.Alike v codec c') (options : ListOptions)
    (hPlace : options.sendInitialEvents = true → v.InPlace) :
    ((MemoryContainer.openFeed options).run c).1 = ((MemoryContainer.openFeed options).run c').1 ∧
      ((MemoryContainer.openFeed options).run c).2.Alike v codec
        ((MemoryContainer.openFeed options).run c').2 := by
  have hInitial : List.Forall₂ (Event.Alike (Entry.Alike v codec))
      (if options.sendInitialEvents then c.entries.values.map .added else [])
      (if options.sendInitialEvents then c'.entries.values.map .added else []) := by
    split
    · rename_i hSends
      exact List.rel_map (fun _ _ => .added) (h.forall₂_after (hPlace hSends) .none)
    · exact .nil
  obtain ⟨hFeed, hBus⟩ := h.bus.subscribe hInitial
  exact ⟨hFeed, h.entries, h.named, h.named', h.revision, hBus⟩

theorem receive (h : c.Alike v codec c') (feed : Nat) :
    ((MemoryContainer.receive feed).run c).1.Alike (Event.Alike (Entry.Alike v codec))
        ((MemoryContainer.receive feed).run c').1 ∧
      ((MemoryContainer.receive feed).run c).2.Alike v codec
        ((MemoryContainer.receive feed).run c').2 := by
  obtain ⟨hReceipt, hBus⟩ := h.bus.receive feed
  exact ⟨hReceipt, h.entries, h.named, h.named', h.revision, hBus⟩

theorem closeFeed (h : c.Alike v codec c') (feed : Nat) :
    ((MemoryContainer.closeFeed feed).run c).2.Alike v codec
      ((MemoryContainer.closeFeed feed).run c').2 :=
  ⟨h.entries, h.named, h.named', h.revision, h.bus.unsubscribe feed⟩

end MemoryContainer.Alike

inductive ContainerWrite.Alike (v : Veil) (codec : Codec α) :
    ContainerWrite → ContainerWrite → Prop
  | create (birth : Birth) {name name' : String} {bytes bytes' : Bytes}
      (h : v.Content codec name bytes name' bytes') :
      Alike v codec (.create birth name bytes) (.create birth name' bytes')
  | patch {name name' : String} {bytes bytes' : Bytes}
      (h : v.Content codec name bytes name' bytes') :
      Alike v codec (.patch name bytes) (.patch name' bytes')
  | delete {name name' : String} (h : v.Name name name') :
      Alike v codec (.delete name) (.delete name')
  | bookmark : Alike v codec .bookmark .bookmark

inductive ContainerStep.Alike (v : Veil) (codec : Codec α) : ContainerStep → ContainerStep → Prop
  | write {w w' : ContainerWrite} (h : w.Alike v codec w') : Alike v codec (.write w) (.write w')
  | watch (options : ListOptions) (hPlace : options.sendInitialEvents = true → v.InPlace) :
      Alike v codec (.watch options) (.watch options)
  | receive (feed : Nat) : Alike v codec (.receive feed) (.receive feed)
  | cancel (feed : Nat) : Alike v codec (.cancel feed) (.cancel feed)

section

variable {c c' : MemoryContainer}

theorem ContainerWrite.Alike.run {w w' : ContainerWrite} (h : w.Alike v codec w')
    (hAlike : c.Alike v codec c') : (runOn w.run c).2.Alike v codec (runOn w'.run c').2 := by
  cases h with
  | create birth hContent =>
    simp only [ContainerWrite.run, bind_pure_comp, runOn_map]
    exact hAlike.create hContent birth
  | patch hContent =>
    simp only [ContainerWrite.run, bind_pure_comp, runOn_map]
    exact hAlike.patch hContent
  | delete hKey =>
    simp only [ContainerWrite.run, bind_pure_comp, runOn_map]
    exact hAlike.delete hKey
  | bookmark => exact hAlike.bookmark

theorem ContainerStep.Alike.run {step step' : ContainerStep} (h : step.Alike v codec step')
    (hAlike : c.Alike v codec c') : (step.run c).Alike v codec (step'.run c') := by
  cases h with
  | write hWrite => exact hWrite.run hAlike
  | watch options hPlace => exact (hAlike.openFeed options hPlace).2
  | receive feed => exact (hAlike.receive feed).2
  | cancel feed => exact hAlike.closeFeed feed

/-- Whatever is done in both runs, the containers go on differing in the one entry. -/
theorem ContainerStep.alike_runAll {steps steps' : List ContainerStep}
    (h : List.Forall₂ (ContainerStep.Alike v codec) steps steps') (hAlike : c.Alike v codec c') :
    (runAll steps c).Alike v codec (runAll steps' c') := by
  induction h generalizing c c' with
  | nil => exact hAlike
  | cons hStep _ ih => exact ih (hStep.run hAlike)

end

/-! ## Pages -/

/-- One token in the two runs: that of the names of one entry, or a text that is no token. -/
inductive Veil.Token (v : Veil) : Option String → Option String → Prop
  | start {start start' : Option String} (h : Option.Rel v.Name start start') :
      Token v (start.map PageToken.encode) (start'.map PageToken.encode)
  | malformed {text : String} {fault : PageToken.Fault} (h : PageToken.decode text = .error fault) :
      Token v (some text) (some text)

structure ListOptions.Alike (v : Veil) (options options' : ListOptions) : Prop where
  limit : options.limit = options'.limit
  continueToken : v.Token options.continueToken options'.continueToken

structure Page.Alike {β : Type} (v : Veil) (alike : β → β → Prop) (page page' : Page β) :
    Prop where
  items : List.Forall₂ alike page.items page'.items
  continueToken : v.Token page.continueToken page'.continueToken
  version : page.version = page'.version

theorem forall₂_getLast? {β γ : Type} {alike : β → γ → Prop} {l : List β} {l' : List γ}
    (h : List.Forall₂ alike l l') : Option.Rel alike l.getLast? l'.getLast? := by
  rw [List.getLast?_eq_getElem?, List.getLast?_eq_getElem?, h.length_eq]
  exact forall₂_getElem? h _

namespace MemoryContainer

theorem page_alike (version : String) (limit : Option Nat) {l l' : List Entry}
    (h : List.Forall₂ (Entry.Alike v codec) l l') :
    (page version limit l).Alike v (Entry.Alike v codec) (page version limit l') := by
  match limit with
  | none => exact ⟨h, .start .none, rfl⟩
  | some 0 => exact ⟨h, .start .none, rfl⟩
  | some (limit + 1) =>
    have hItems := List.forall₂_take (limit + 1) h
    have hRest := List.forall₂_drop (limit + 1) h
    have hLast := forall₂_getLast? hItems
    refine ⟨hItems, ?_, rfl⟩
    simp only [page]
    generalize l.drop (limit + 1) = rest, l'.drop (limit + 1) = rest' at hRest
    cases hRest with
    | nil => exact .start .none
    | cons =>
      generalize (l.take (limit + 1)).getLast? = last, (l'.take (limit + 1)).getLast? = last'
        at hLast
      cases hLast with
      | none => exact .start .none
      | some hEntry => exact .start (.some hEntry.content.names)

/-- One page of containers that differ in one entry. -/
theorem list_matches (hPlace : v.InPlace) {options options' : ListOptions}
    (hOptions : options.Alike v options') :
    Matches (MemoryContainer.Alike v codec) (Agree (Page.Alike v (Entry.Alike v codec)))
      (runOn (list options)) (runOn (list options')) := by
  intro c c' hAlike
  obtain ⟨hLimit, hToken⟩ := hOptions
  generalize hFrom : options.continueToken = token, hFrom' : options'.continueToken = token'
    at hToken
  cases hToken with
  | start hStart =>
    rw [runOn_list_of_start c hFrom, runOn_list_of_start c' hFrom', hLimit, hAlike.revision]
    exact ⟨.ok (page_alike _ _ (hAlike.forall₂_after hPlace hStart)), hAlike⟩
  | malformed hFault =>
    rw [runOn_list_of_fault c hFrom hFault, runOn_list_of_fault c' hFrom' hFault]
    exact ⟨.error _, hAlike⟩

end MemoryContainer

end Tenancy
