import Tenancy.Proofs.Store.Respect
import Tenancy.Proofs.Store.Visibility

/-!
# A store behind an authorizer

Behind an authorizer a store is the inner store restricted.  What is left of a single call is one
equation (`CollectionRequest.runOn_authorized`).  Whole runs are compared for an actor whom the
authorizer always allows: a client makes calls, its watches move on, and other things happen to the
state.  What the authorizer keeps for itself makes no difference between two states.

* `StoreClient.Related.call`: a call behind the authorizer and the call to the inner store.
* `StoreClient.exists_run`: from steps that are matched to runs that are.
* `authorized_restricts_inner`: the restriction.
-/

namespace Tenancy

variable {σ α : Type} {same : σ → σ → Prop}

/-! ## Authorizers that allow everything -/

/-- Whatever the actor wants to do, the authorizer allows it and changes nothing that matters. -/
def Authorizer.AlwaysAllows (authorizer : Authorizer (StateM σ)) (same : σ → σ → Prop)
    (actor : Actor) : Prop :=
  ∀ q : AccessRequest, q.actor = actor → ∀ st st', same st st' →
    ∃ t, runOn (authorizer q) st = (.ok .allow, t) ∧ same t st'

section

variable {authorizer : Authorizer (StateM σ)} {actor : Actor}
  (hAllows : authorizer.AlwaysAllows same actor) (collection : Collection)

include hAllows

theorem Authorizer.AlwaysAllows.maySee (name : String) {st st' : σ} (hSame : same st st') :
    ((authorizer.maySee actor collection name).run st).1 = true ∧
      same ((authorizer.maySee actor collection name).run st).2 st' := by
  obtain ⟨t, hAnswer, hNext⟩ := hAllows (.forName actor .get collection name) rfl st st' hSame
  rw [run_maySee, sees, hAnswer]
  exact ⟨rfl, hNext⟩

theorem Store.passesAll_maySeeEvent :
    PassesAll same (maySeeEvent (α := α) authorizer actor collection) := by
  intro e st st' hSame
  rw [maySeeEvent]
  cases e.object? with
  | none => exact ⟨rfl, hSame⟩
  | some r => exact hAllows.maySee collection r.name hSame

theorem Store.run_visible_of_alwaysAllows (items : List (Resource α)) {st st' : σ}
    (hSame : same st st') :
    ∃ t, (visible authorizer actor collection items).run st = (items, t) ∧ same t st' := by
  induction items generalizing st with
  | nil => exact ⟨st, rfl, hSame⟩
  | cons item items ih =>
    obtain ⟨hSees, hNext⟩ := hAllows.maySee collection item.name hSame
    obtain ⟨t, hRest, hEnd⟩ := ih hNext
    refine ⟨t, ?_, hEnd⟩
    simp only [visible, run_bind, hSees, hRest, run_pure, if_true]

end

/-! ## Clients -/

/-- The store refuses the request if it has not declared the verb. -/
def Store.RefusesUndeclared (store : Store (StateM σ) α) (call : Call)
    (q : CollectionRequest σ α) : Prop :=
  store.capabilities.supports q.verb = false →
    ∀ st, runOn (q.run store call) st = (.error (.methodNotSupported q.verb), st)

/-- What a client sees of a reply at once. -/
inductive ClientAnswer (α : Type) where
  | outcome (o : Outcome α)
  | page (p : Page (Resource α))
  | opened

def Reply.answer : Reply σ α → ClientAnswer α
  | .outcome o => .outcome o
  | .page p => .page p
  | .watch _ => .opened

def Reply.opened : Reply σ α → List (Watching σ (Resource α))
  | .outcome _ | .page _ => []
  | .watch w => [⟨w, []⟩]

/-- A reply and what the actor gets of it, if it is allowed everything. -/
theorem Reply.restrict_of_alwaysAllows {authorizer : Authorizer (StateM σ)}
    {actor : Actor} (hAllows : authorizer.AlwaysAllows same actor) (collection : Collection)
    (watchBuffer : Nat) {related : Watching σ (Resource α) → Watching σ (Resource α) → Prop}
    (hOpened : ∀ w test, w.Respects same → PassesAll same test →
      related ⟨.filtered w test (.ofCapacity watchBuffer), []⟩ ⟨w, []⟩) (reply : Reply σ α)
    (hWatch : ∀ w, reply = .watch w → w.Respects same) {st st' : σ} (hSame : same st st') :
    ∃ shown t, (reply.restrict authorizer actor collection watchBuffer).run st = (shown, t) ∧
      same t st' ∧ shown.answer = reply.answer ∧
      List.Forall₂ related shown.opened reply.opened := by
  cases reply with
  | outcome o => exact ⟨.outcome o, st, rfl, hSame, rfl, .nil⟩
  | page p =>
    obtain ⟨t, hItems, hNext⟩ := Store.run_visible_of_alwaysAllows hAllows collection p.items hSame
    refine ⟨.page p, t, ?_, hNext, rfl, .nil⟩
    rw [Reply.restrict, run_bind, hItems]
    rfl
  | watch w =>
    refine ⟨_, st, rfl, hSame, rfl, .cons ?_ .nil⟩
    exact hOpened w _ (hWatch w rfl) (Store.passesAll_maySeeEvent hAllows collection)

/-- A client of a store: the state around it, what its calls have been answered, and its watches. -/
structure StoreClient (σ α : Type) where
  state : σ
  answers : List (Except StoreError (ClientAnswer α))
  watches : List (Watching σ (Resource α))

inductive ClientStep (σ α : Type) where
  | call (call : Call) (q : CollectionRequest σ α)
  /-- A relay of one of the watches, or the client as its consumer, makes a move. -/
  | watch (number : Nat) (move : WatchMove)
  /-- Something happens to the state without the client. -/
  | elsewhere (change : σ → σ)

def ClientStep.ends : ClientStep σ α → Bool
  | .watch _ move => move.ends
  | .call .. | .elsewhere _ => false

def ClientStep.isMove : ClientStep σ α → Bool
  | .watch .. => true
  | .call .. | .elsewhere _ => false

def ClientStep.calls (steps : List (ClientStep σ α)) : List (ClientStep σ α) :=
  steps.filter fun step => !step.isMove

/-- A step by which states that are the same remain so: a call of the actor that a store answers
by its contract, or a change that respects what is the same. -/
def ClientStep.IsClear (same : σ → σ → Prop) (actor : Actor)
    (store : Store (StateM σ) α) : ClientStep σ α → Prop
  | .call c q => c.actor = actor ∧ q.Respects same ∧ store.RefusesUndeclared c q
  | .watch .. => True
  | .elsewhere change => ∀ st st', same st st' → same (change st) (change st')

theorem ClientStep.calls_moves (number : Nat) (moves : List WatchMove) :
    calls (moves.map (.watch number)) = ([] : List (ClientStep σ α)) := by
  rw [calls, List.filter_eq_nil_iff]
  rintro _ hMem
  obtain ⟨move, -, rfl⟩ := List.mem_map.1 hMem
  exact Bool.false_ne_true

theorem ClientStep.calls_append (first second : List (ClientStep σ α)) :
    calls (first ++ second) = calls first ++ calls second := List.filter_append ..

/-- What stands at one place of related lists, which remain related if it is replaced there. -/
theorem forall₂_at {β γ : Type} {related : β → γ → Prop} {l : List β} {l' : List γ}
    (h : List.Forall₂ related l l') (i : Nat) :
    (l[i]? = none ∧ l'[i]? = none) ∨
      ∃ a b, l[i]? = some a ∧ l'[i]? = some b ∧ related a b ∧
        ∀ {a' b'}, related a' b' → List.Forall₂ related (l.set i a') (l'.set i b') := by
  induction h generalizing i with
  | nil => exact .inl ⟨rfl, rfl⟩
  | @cons a b l l' hHead hTail ih =>
    cases i with
    | zero => exact .inr ⟨a, b, rfl, rfl, hHead, fun hNew => .cons hNew hTail⟩
    | succ i =>
      rcases ih i with hNone | ⟨a', b', hLeft, hRight, hRelated, hSet⟩
      · exact .inl hNone
      · exact .inr ⟨a', b', hLeft, hRight, hRelated, fun hNew => .cons hHead (hSet hNew)⟩

namespace StoreClient

def start (st : σ) : StoreClient σ α := ⟨st, [], []⟩

def answered (c : StoreClient σ α) : Except StoreError (Reply σ α) × σ → StoreClient σ α
  | (.ok reply, st) => ⟨st, c.answers ++ [.ok reply.answer], c.watches ++ reply.opened⟩
  | (.error e, st) => ⟨st, c.answers ++ [.error e], c.watches⟩

def moved (c : StoreClient σ α) (number : Nat) (now : Watching σ (Resource α) × σ) :
    StoreClient σ α :=
  ⟨now.2, c.answers, c.watches.set number now.1⟩

def step (store : Store (StateM σ) α) (c : StoreClient σ α) : ClientStep σ α → StoreClient σ α
  | .call call q => c.answered (runOn (q.run store call) c.state)
  | .watch number move =>
    match c.watches[number]? with
    | some v => c.moved number ((v.move move).run c.state)
    | none => c
  | .elsewhere change => { c with state := change c.state }

def run (store : Store (StateM σ) α) (steps : List (ClientStep σ α)) (c : StoreClient σ α) :
    StoreClient σ α :=
  steps.foldl (step store) c

theorem run_append (store : Store (StateM σ) α) (first second : List (ClientStep σ α))
    (c : StoreClient σ α) : run store (first ++ second) c = run store second (run store first c) :=
  List.foldl_append

/-- Moves of one watch in a row. -/
theorem run_moves (store : Store (StateM σ) α) {c : StoreClient σ α} {number : Nat}
    {v : Watching σ (Resource α)} (hWatch : c.watches[number]? = some v) (moves : List WatchMove) :
    run store (moves.map (.watch number)) c =
      c.moved number (Watching.moveAll moves (v, c.state)) := by
  induction moves generalizing c v with
  | nil =>
    obtain ⟨hLength, rfl⟩ := List.getElem?_eq_some_iff.1 hWatch
    rw [Watching.moveAll, List.foldl_nil, moved, List.set_getElem_self]
    rfl
  | cons move moves ih =>
    have hStep : c.step store (.watch number move) =
        c.moved number ((v.move move).run c.state) := by rw [step, hWatch]
    obtain ⟨hLength, -⟩ := List.getElem?_eq_some_iff.1 hWatch
    have hMoved := ih (c := c.moved number ((v.move move).run c.state))
      (List.getElem?_set_self hLength)
    rw [List.map_cons, run, List.foldl_cons, hStep]
    rw [run] at hMoved
    rw [hMoved, Watching.moveAll_cons, moved, moved, moved, List.set_set]
    rfl

/-- Two clients have had the same answers in states that are the same, and their watches are
related. -/
structure Related (same : σ → σ → Prop)
    (related : Watching σ (Resource α) → Watching σ (Resource α) → Prop) (c d : StoreClient σ α) :
    Prop where
  state : same c.state d.state
  answers : c.answers = d.answers
  watches : List.Forall₂ related c.watches d.watches

section

variable {related related' : Watching σ (Resource α) → Watching σ (Resource α) → Prop}
  {c d : StoreClient σ α}

theorem Related.start {st st' : σ} (hSame : same st st') :
    Related same related (.start st) (.start st') := ⟨hSame, rfl, .nil⟩

theorem Related.imp (h : Related same related c d) (hImp : ∀ {v u}, related v u → related' v u) :
    Related same related' c d := ⟨h.state, h.answers, h.watches.imp fun _ _ => hImp⟩

variable {inner : Store (StateM σ) α} {authorizer : Authorizer (StateM σ)} {actor : Actor}
  {watchBuffer : Nat} (hInner : inner.Respects same)
  (hAllows : authorizer.AlwaysAllows same actor)

include hInner hAllows

/-- A call behind the authorizer and the call to the inner store. -/
theorem Related.call
    (hOpened : ∀ w test, w.Respects same → PassesAll same test →
      related ⟨.filtered w test (.ofCapacity watchBuffer), []⟩ ⟨w, []⟩)
    (h : Related same related c d) {call : Call} {q : CollectionRequest σ α}
    (hClear : (ClientStep.call call q).IsClear same actor inner) :
    Related same related (c.step (inner.authorized authorizer watchBuffer) (.call call q))
      (d.step inner (.call call q)) := by
  obtain ⟨rfl, hRequest, hRefuses⟩ := hClear
  rw [step, step, CollectionRequest.runOn_authorized]
  cases hSupported : inner.capabilities.supports q.verb with
  | false =>
    rw [hRefuses hSupported]
    exact ⟨h.state, congrArg (· ++ _) h.answers, h.watches⟩
  | true =>
    obtain ⟨t, hAnswer, hAsked⟩ :=
      hAllows (q.question inner.collection call) rfl _ _ h.state
    obtain ⟨hResult, hNext⟩ := hInner.calls call q hRequest t d.state hAsked
    have hWatch := hInner.watches call q t
    rw [hAnswer, if_pos rfl]
    dsimp only
    rw [runOn_bind]
    rcases hBehind : runOn (q.run inner call) t with ⟨result, u⟩
    rcases hPlain : runOn (q.run inner call) d.state with ⟨result', u'⟩
    rw [hBehind, hPlain] at hResult hNext
    obtain rfl : result = result' := hResult
    cases result with
    | error e => exact ⟨hNext, congrArg (· ++ _) h.answers, h.watches⟩
    | ok reply =>
      have hOk : ∀ w, reply = .watch w → w.Respects same := fun w hEq =>
        hWatch w u (hEq ▸ hBehind)
      obtain ⟨shown, v, hShown, hEnd, hSeen, hWatches⟩ :=
        reply.restrict_of_alwaysAllows hAllows inner.collection watchBuffer hOpened hOk hNext
      dsimp only
      rw [runOn_lift, hShown]
      exact ⟨hEnd, by rw [answered, answered, hSeen, h.answers], List.rel_append h.watches hWatches⟩

/-- What happens behind the authorizer is matched at the inner store. -/
theorem Related.step_behind (h : Related same (Trails same) c d) (step : ClientStep σ α)
    (hClear : step.IsClear same actor inner) :
    ∃ steps, ClientStep.calls steps = ClientStep.calls [step] ∧
      Related same (Trails same) (c.step (inner.authorized authorizer watchBuffer) step)
        (d.run inner steps) := by
  cases step with
  | call call q =>
    refine ⟨[.call call q], rfl, h.call hInner hAllows (fun w test hWatch hTest => ?_) hClear⟩
    exact .intro w test _ [] [] hWatch hTest rfl (List.prefix_refl _) fun _ => rfl
  | elsewhere change =>
    exact ⟨[.elsewhere change], rfl, ⟨hClear _ _ h.state, h.answers, h.watches⟩⟩
  | watch number move =>
    rcases forall₂_at h.watches number with ⟨hNone, -⟩ | ⟨v, u, hBehind, hPlain, hTrails, hSet⟩
    · refine ⟨[], rfl, ?_⟩
      rw [StoreClient.step, hNone]
      exact h
    · obtain ⟨moves, hMoved, hSame⟩ := hTrails.move h.state move
      refine ⟨moves.map (.watch number), ClientStep.calls_moves number moves, ?_⟩
      rw [StoreClient.step, hBehind, run_moves inner hPlain]
      exact ⟨hSame, h.answers, hSet hMoved⟩

/-- What happens at the inner store is matched behind the authorizer. -/
theorem Related.step_before (h : Related same (Abreast same) c d) (step : ClientStep σ α)
    (hClear : step.IsClear same actor inner) (hGoesOn : step.ends = false) :
    ∃ steps, ClientStep.calls steps = ClientStep.calls [step] ∧
      Related same (Abreast same) (c.run (inner.authorized authorizer watchBuffer) steps)
        (d.step inner step) := by
  cases step with
  | call call q =>
    refine ⟨[.call call q], rfl, h.call hInner hAllows (fun w test hWatch hTest => ?_) hClear⟩
    exact .intro w test _ [] hWatch hTest ⟨rfl, rfl⟩ (Nat.le_max_right ..) rfl rfl
  | elsewhere change =>
    exact ⟨[.elsewhere change], rfl, ⟨hClear _ _ h.state, h.answers, h.watches⟩⟩
  | watch number move =>
    rcases forall₂_at h.watches number with ⟨-, hNone⟩ | ⟨v, u, hBehind, hPlain, hAbreast, hSet⟩
    · refine ⟨[], rfl, ?_⟩
      rw [StoreClient.step, hNone]
      exact h
    · obtain ⟨moves, hMoved, hSame⟩ := hAbreast.move h.state hGoesOn
      refine ⟨moves.map (.watch number), ClientStep.calls_moves number moves, ?_⟩
      rw [StoreClient.step, hPlain, run_moves _ hBehind]
      exact ⟨hSame, h.answers, hSet hMoved⟩

end

/-- If every step from related clients is matched, every run is. -/
theorem exists_run (matching : StoreClient σ α → StoreClient σ α → Prop)
    (IsMatched : ClientStep σ α → Prop) {store store' : Store (StateM σ) α}
    (hStep : ∀ c d, matching c d → ∀ step, IsMatched step →
      ∃ steps, ClientStep.calls steps = ClientStep.calls [step] ∧
        matching (c.step store step) (d.run store' steps))
    {c d : StoreClient σ α} (h : matching c d) {steps : List (ClientStep σ α)}
    (hSteps : ∀ step ∈ steps, IsMatched step) :
    ∃ steps', ClientStep.calls steps' = ClientStep.calls steps ∧
      matching (c.run store steps) (d.run store' steps') := by
  induction steps generalizing c d with
  | nil => exact ⟨[], rfl, h⟩
  | cons step steps ih =>
    obtain ⟨hFirst, hRest⟩ := List.forall_mem_cons.1 hSteps
    obtain ⟨first, hFirstCalls, hNext⟩ := hStep c d h step hFirst
    obtain ⟨rest, hRestCalls, hEnd⟩ := ih hNext hRest
    refine ⟨first ++ rest, ?_, ?_⟩
    · rw [← List.singleton_append, ClientStep.calls_append, ClientStep.calls_append, hFirstCalls,
        hRestCalls]
    · rw [run_append]
      exact hEnd

end StoreClient

/-- Of what a watch has delivered, the other has delivered a beginning; unless its consumer has
stopped it, all is delivered but what its relay holds. -/
def Watching.LagsBehind (v u : Watching σ (Resource α)) : Prop :=
  v.received <+: u.received ∧
    (v.watch.relay.channel.isOpen = true → v.received ++ v.watch.relay.held = u.received)

theorem Trails.lagsBehind {v u : Watching σ (Resource α)} (h : Trails same v u) :
    v.LagsBehind u := by
  obtain ⟨inner, test, r, received, seen, -, -, -, hPrefix, hOpen⟩ := h
  exact ⟨(List.prefix_append ..).trans hPrefix, hOpen⟩

theorem Abreast.received_eq {v u : Watching σ (Resource α)} (h : Abreast same v u) :
    v.received = u.received := by
  cases h
  rfl

/-- A store behind an authorizer is the inner store, restricted.  A call of a verb that is not
declared fails and leaves the state alone.  Any other begins with one question: about the actor of
the call, its verb, and the name of its object if it has one that is not empty.  If the answer is a
denial or a failure, that is the error of the call, and the state is as the authorizer has left it.
Otherwise the inner store is called from there, and a call about one resource is that call and
nothing else.

For an actor whom the authorizer always allows, whole runs are the same, whatever else happens to
the state: each run behind the authorizer is one of the inner store with the same calls, the same
answers, the same state and the same events of its watches, but for those that are still on their
way; and as long as the client ends no watch, each run of the inner store is one behind the
authorizer, with all of its events.  If the authorizer keeps nothing for itself, the states are
equal (`Store.respects_eq`). -/
theorem authorized_restricts_inner (inner : Store (StateM σ) α)
    (authorizer : Authorizer (StateM σ)) (watchBuffer : Nat) :
    let store := inner.authorized authorizer watchBuffer
    (∀ (call : Call) (q : CollectionRequest σ α) (st : σ),
      runOn (q.run store call) st =
        if inner.capabilities.supports q.verb then
          match runOn (authorizer ⟨call.actor, q.verb, ⟨inner.collection, q.objectName?⟩⟩) st with
          | (.ok .allow, t) => runOn (do
              let reply ← q.run inner call
              ExceptT.lift (reply.restrict authorizer call.actor inner.collection watchBuffer)) t
          | (.ok (.deny reason), t) => (.error (.forbidden reason), t)
          | (.error e, t) => (.error (.internal ("authorizer failed: " ++ e.message)), t)
        else (.error (.methodNotSupported q.verb), st)) ∧
    (∀ (call : Call) (q : StoreRequest σ α) (st t : σ),
      inner.capabilities.supports q.verb = true →
      runOn (authorizer (.forName call.actor q.verb inner.collection q.asked)) st =
        (.ok .allow, t) →
      runOn (q.run store call) st = runOn (q.run inner call) t) ∧
    ∀ (same : σ → σ → Prop) (actor : Actor), inner.Respects same →
      authorizer.AlwaysAllows same actor → ∀ st st', same st st' →
      ∀ steps : List (ClientStep σ α), (∀ step ∈ steps, step.IsClear same actor inner) →
        (∃ innerSteps, ClientStep.calls innerSteps = ClientStep.calls steps ∧
          StoreClient.Related same Watching.LagsBehind (StoreClient.run store steps (.start st))
            (StoreClient.run inner innerSteps (.start st'))) ∧
        ((∀ step ∈ steps, step.ends = false) →
          ∃ outerSteps, ClientStep.calls outerSteps = ClientStep.calls steps ∧
            StoreClient.Related same (fun v u => v.received = u.received)
              (StoreClient.run store outerSteps (.start st))
              (StoreClient.run inner steps (.start st'))) := by
  intro store
  refine ⟨CollectionRequest.runOn_authorized authorizer inner watchBuffer,
    fun call q st t hSupported hAllowed => ?_, fun same actor hInner hAllows st st' hSame steps
    hClear => ⟨?_, fun hGoesOn => ?_⟩⟩
  · exact StoreRequest.runOn_authorized_of_allow hSupported hAllowed
  · obtain ⟨innerSteps, hCalls, hRelated⟩ := StoreClient.exists_run
      (StoreClient.Related same (Trails same)) (ClientStep.IsClear same actor inner)
      (fun _ _ h step hStep => h.step_behind hInner hAllows step hStep) (.start hSame) hClear
    exact ⟨innerSteps, hCalls, hRelated.imp fun h => h.lagsBehind⟩
  · obtain ⟨outerSteps, hCalls, hRelated⟩ := StoreClient.exists_run
      (fun d c => StoreClient.Related same (Abreast same) c d)
      (fun step => step.IsClear same actor inner ∧ step.ends = false)
      (fun _ _ h step hStep => h.step_before hInner hAllows step hStep.1 hStep.2) (.start hSame)
      fun step hMem => ⟨hClear step hMem, hGoesOn step hMem⟩
    exact ⟨outerSteps, hCalls, hRelated.imp fun h => h.received_eq⟩

/-! ## An authorizer that writes everything down -/

/-- Everything is allowed, and what is asked is written down beside the container. -/
def Authorizer.recording : Authorizer (StateM (MemoryContainer × List AccessRequest)) := fun q => do
  modify fun st => (st.1, st.2 ++ [q])
  return .allow

/-- The states differ at most in what is written down. -/
def SameContainer (st st' : MemoryContainer × List AccessRequest) : Prop := st.1 = st'.1

theorem Authorizer.alwaysAllows_recording (actor : Actor) :
    recording.AlwaysAllows SameContainer actor := fun _ _ _ _ hSame => ⟨_, rfl, hSame⟩

theorem besideMutations_matters :
    (besideMutations (τ := List AccessRequest)).Matters SameContainer where
  read hSame := hSame
  write _ _ := rfl

def BlobStore.recorded : BlobStore (StateM (MemoryContainer × List AccessRequest)) Bytes :=
  ⟨.organization, MemoryContainer.container besideMutations.cell, .verbatim, {}, .all⟩

def ClientStep.sample (call : Call) :
    List (ClientStep (MemoryContainer × List AccessRequest) Bytes) :=
  [.call call (.one (.write (.create (.named "a" [1])))),
    .call call (.watch { sendInitialEvents := true }), .watch 0 (.relay 0), .watch 0 (.relay 0),
    .watch 0 (.relay 1), .watch 0 (.relay 1), .watch 0 .receive, .call call (.list {}),
    .call call (.one (.delete "a"))]

/-- The entry is asked about by name once more for its event and once for the page. -/
theorem authorized_restricts_inner_recorded :
    let call : Call := ⟨⟨"eve", []⟩, ⟨0, 0⟩, "1", "abcde"⟩
    let st : MemoryContainer × List AccessRequest := (.ofCapacity 8, [])
    let inner := BlobStore.recorded.store
    let store := inner.authorized .recording
    let q : StoreRequest _ Bytes := .get "a"
    let behind := StoreClient.run store (ClientStep.sample call) (.start st)
    let before := StoreClient.run inner (ClientStep.sample call) (.start st)
    runOn (q.run store call) st =
      runOn (q.run inner call) (st.1, [.forName call.actor .get .organization "a"]) ∧
    (∃ steps, ClientStep.calls steps = ClientStep.calls (ClientStep.sample call) ∧
      StoreClient.Related SameContainer Watching.LagsBehind behind
        (StoreClient.run inner steps (.start st))) ∧
    (∃ steps, ClientStep.calls steps = ClientStep.calls (ClientStep.sample call) ∧
      StoreClient.Related SameContainer (fun v u => v.received = u.received)
        (StoreClient.run store steps (.start st)) before) ∧
    behind.answers.length = 4 ∧ behind.state.1.revision = 2 ∧
    behind.watches.map (fun v => v.received.map (·.type)) = [[.added]] ∧
    before.watches.map (fun v => v.received.map (·.type)) = [[.added]] ∧
    behind.state.2.map (fun q => (q.verb, q.coordinates.name)) =
      [(.create, some "a"), (.watch, none), (.get, some "a"), (.list, none), (.get, some "a"),
        (.delete, some "a")] := by
  intro call st inner store q behind before
  have hInner : inner.Respects SameContainer :=
    BlobStore.store_respects (MemoryContainer.container_respects besideMutations_matters)
  have hClear : ∀ step ∈ ClientStep.sample call, step.IsClear SameContainer call.actor inner := by
    simp only [ClientStep.sample, List.forall_mem_cons]
    exact ⟨⟨rfl, trivial, nofun⟩, ⟨rfl, trivial, nofun⟩, trivial, trivial, trivial, trivial,
      trivial, ⟨rfl, trivial, nofun⟩, ⟨rfl, trivial, nofun⟩, List.forall_mem_nil _⟩
  have hGoesOn : ∀ step ∈ ClientStep.sample call, step.ends = false := by
    simp only [ClientStep.sample, List.forall_mem_cons]
    exact ⟨rfl, rfl, rfl, rfl, rfl, rfl, rfl, rfl, rfl, List.forall_mem_nil _⟩
  obtain ⟨-, hOne, hRuns⟩ := authorized_restricts_inner inner .recording Channel.defaultCapacity
  obtain ⟨hBehind, hBefore⟩ := hRuns SameContainer call.actor hInner
    (Authorizer.alwaysAllows_recording call.actor) st st rfl (ClientStep.sample call) hClear
  exact ⟨hOne call q st _ rfl rfl, hBehind, hBefore hGoesOn, by decide +kernel, by decide +kernel,
    by decide +kernel, by decide +kernel, by decide +kernel⟩

end Tenancy
