import Tenancy.Proofs.Store.Permission

/-!
# The decorator as a restriction

Everything that can be asked of a store, in one form, and what a store behind an authorizer makes
of it: nothing if the verb is not supported; else one question to the authorizer, and only if that
is answered by `allow`, the call to the store below.

* `CollectionRequest.question`: the question.
* `CollectionRequest.runOn_authorized`: the whole call.
* `StoreRequest.runOn_authorized_of_allow`: a call about one resource that is allowed.
-/

namespace Tenancy

variable {σ α β : Type}

inductive CollectionRequest (σ α : Type) where
  | one (q : StoreRequest σ α)
  | list (options : ListOptions)
  | watch (options : ListOptions)

inductive Reply (σ α : Type) where
  | outcome (o : Outcome α)
  | page (p : Page (Resource α))
  | watch (w : Watch (StateM σ) (Resource α))

/-- What the actor gets of a reply: the outcome of a call about one resource as it is, and of a page
or a watch what it may see. -/
def Reply.restrict (authorizer : Authorizer (StateM σ)) (actor : Actor) (collection : Collection)
    (watchBuffer : Nat) : Reply σ α → StateM σ (Reply σ α)
  | .outcome o => pure (.outcome o)
  | .page p => do
    let items ← Store.visible authorizer actor collection p.items
    return .page { p with items := items }
  | .watch w =>
    pure (.watch (.filtered w (Store.maySeeEvent authorizer actor collection)
      (.ofCapacity watchBuffer)))

namespace CollectionRequest

def verb : CollectionRequest σ α → Verb
  | .one q => q.verb
  | .list _ => .list
  | .watch _ => .watch

def run (q : CollectionRequest σ α) (store : Store (StateM σ) α) (call : Call) :
    ExceptT StoreError (StateM σ) (Reply σ α) :=
  match q with
  | .one q => .outcome <$> q.run store call
  | .list options => .page <$> store.list call options
  | .watch options => .watch <$> store.watch call options

def objectName? : CollectionRequest σ α → Option String
  | .one q => if q.asked.isEmpty then none else some q.asked
  | .list _ | .watch _ => none

/-- What the authorizer is asked about the request. -/
def question (q : CollectionRequest σ α) (collection : Collection) (call : Call) : AccessRequest :=
  ⟨call.actor, q.verb, ⟨collection, q.objectName?⟩⟩

variable (authorizer : Authorizer (StateM σ))

/-- The guarded form of a call whose result is converted. -/
theorem runOn_map_guarded (f : β → Reply σ α) (capabilities : Capabilities)
    (collection : Collection) (call : Call) (verb : Verb) (name : Option String)
    (inner : ExceptT StoreError (StateM σ) β) (st : σ) :
    runOn (f <$> (do
      capabilities.require verb
      Store.authorize authorizer collection call verb name
      inner : ExceptT StoreError (StateM σ) β)) st =
      if capabilities.supports verb then
        match runOn (authorizer (Store.question collection call verb name)) st with
        | (.ok .allow, t) => runOn (f <$> inner) t
        | (.ok (.deny reason), t) => (.error (.forbidden reason), t)
        | (.error e, t) => (.error (.internal ("authorizer failed: " ++ e.message)), t)
      else (.error (.methodNotSupported verb), st) := by
  rw [runOn_map]
  cases hSupported : capabilities.supports verb with
  | false =>
    have hRefused := Capabilities.runOn_require hSupported (fun _ => do
      Store.authorize authorizer collection call verb name
      inner) st
    rw [hRefused]
    rfl
  | true =>
    rw [Store.runOn_guarded hSupported, if_pos rfl]
    rcases runOn (authorizer _) st with ⟨e | _ | reason, t⟩
    · rfl
    · exact (runOn_map f inner t).symm
    · rfl

theorem question_of_name (call : Call) (collection : Collection) (q : StoreRequest σ α) :
    (one q).question collection call = Store.question collection call q.verb (some q.asked) := by
  rw [question, objectName?, Store.question, Option.filter]
  cases q.asked.isEmpty <;> rfl

/-- The outcome of a call about one resource is restricted in no way. -/
theorem runOn_restrict_one (q : StoreRequest σ α) (inner : Store (StateM σ) α) (watchBuffer : Nat)
    (call : Call) (st : σ) :
    runOn (do
      let reply ← (one q).run inner call
      ExceptT.lift (reply.restrict authorizer call.actor inner.collection watchBuffer)) st =
      runOn ((one q).run inner call) st := by
  simp only [run, runOn_bind, runOn_map]
  rcases runOn (q.run inner call) st with ⟨_ | _, t⟩
  · rfl
  · rfl

theorem runOn_restrict_list (options : ListOptions) (inner : Store (StateM σ) α)
    (watchBuffer : Nat) (call : Call) (st : σ) :
    runOn (do
      let reply ← (list options).run inner call
      ExceptT.lift (reply.restrict authorizer call.actor inner.collection watchBuffer)) st =
      runOn (Reply.page <$> (do
        let page ← inner.list call options
        let items ← ExceptT.lift
          (Store.visible authorizer call.actor inner.collection page.items)
        return { page with items := items } : ExceptT StoreError (StateM σ) _)) st := by
  simp only [run, runOn_bind, runOn_map]
  rcases runOn (inner.list call options) st with ⟨_ | page, t⟩
  · rfl
  · rfl

theorem runOn_restrict_watch (options : ListOptions) (inner : Store (StateM σ) α)
    (watchBuffer : Nat) (call : Call) (st : σ) :
    runOn (do
      let reply ← (watch options).run inner call
      ExceptT.lift (reply.restrict authorizer call.actor inner.collection watchBuffer)) st =
      runOn (Reply.watch <$> (do
        let w ← inner.watch call options
        return .filtered w (Store.maySeeEvent authorizer call.actor inner.collection)
          (.ofCapacity watchBuffer) : ExceptT StoreError (StateM σ) _)) st := by
  simp only [run, runOn_bind, runOn_map]
  rcases runOn (inner.watch call options) st with ⟨_ | w, t⟩
  · rfl
  · rfl

/-- A call to a store behind an authorizer: the verb is checked first, then the authorizer is asked
its question, and only then, if the answer is to allow the call, the inner store is called. -/
theorem runOn_authorized (inner : Store (StateM σ) α) (watchBuffer : Nat) (call : Call)
    (q : CollectionRequest σ α) (st : σ) :
    runOn (q.run (inner.authorized authorizer watchBuffer) call) st =
      if inner.capabilities.supports q.verb then
        match runOn (authorizer (q.question inner.collection call)) st with
        | (.ok .allow, t) => runOn (do
            let reply ← q.run inner call
            ExceptT.lift (reply.restrict authorizer call.actor inner.collection watchBuffer)) t
        | (.ok (.deny reason), t) => (.error (.forbidden reason), t)
        | (.error e, t) => (.error (.internal ("authorizer failed: " ++ e.message)), t)
      else (.error (.methodNotSupported q.verb), st) := by
  match q with
  | .one (.get name) =>
    have hRun := runOn_map_guarded authorizer (fun r => Reply.outcome (r, false))
      inner.capabilities inner.collection call .get (some name) (inner.get call name) st
    simp only [runOn_restrict_one, question_of_name]
    simp only [run, StoreRequest.run, Functor.map_map]
    exact hRun
  | .one (.write (.create r)) =>
    have hRun := runOn_map_guarded authorizer (fun r => Reply.outcome (r, true))
      inner.capabilities inner.collection call .create (some r.name) (inner.create call r) st
    simp only [runOn_restrict_one, question_of_name]
    simp only [run, StoreRequest.run, Write.run, Functor.map_map]
    exact hRun
  | .one (.write (.update name mutate allowCreate)) =>
    simp only [runOn_restrict_one, question_of_name]
    exact runOn_map_guarded authorizer Reply.outcome inner.capabilities inner.collection call
      .update (some name) (inner.update call name mutate allowCreate) st
  | .one (.delete name) =>
    simp only [runOn_restrict_one, question_of_name]
    exact runOn_map_guarded authorizer Reply.outcome inner.capabilities inner.collection call
      .delete (some name) (inner.delete call name) st
  | .list options =>
    simp only [runOn_restrict_list]
    exact runOn_map_guarded authorizer Reply.page inner.capabilities inner.collection call .list
      none _ st
  | .watch options =>
    simp only [runOn_restrict_watch]
    exact runOn_map_guarded authorizer Reply.watch inner.capabilities inner.collection call .watch
      none _ st

/-- A plain store refuses the requests of verbs that it does not support. -/
theorem runOn_refused {s : BlobStore (StateM σ) α} {q : CollectionRequest σ α}
    (hUnsupported : s.capabilities.supports q.verb = false) (call : Call) (st : σ) :
    runOn (q.run s.store call) st = (.error (.methodNotSupported q.verb), st) := by
  cases q with
  | one q => simp only [run, runOn_map, s.runOn_unsupported hUnsupported, map_error, verb]
  | list options =>
    have hRefused : runOn (s.list options) st = _ := Capabilities.runOn_require hUnsupported _ st
    simp only [run, BlobStore.store, runOn_map, hRefused, map_error]
  | watch options =>
    have hRefused : runOn (s.watch options) st = _ := Capabilities.runOn_require hUnsupported _ st
    simp only [run, BlobStore.store, runOn_map, hRefused, map_error]

end CollectionRequest

/-- A call about one resource that is allowed is the call to the inner store. -/
theorem StoreRequest.runOn_authorized_of_allow {authorizer : Authorizer (StateM σ)}
    {inner : Store (StateM σ) α} {watchBuffer : Nat} {call : Call} {q : StoreRequest σ α}
    {st t : σ} (hSupported : inner.capabilities.supports q.verb = true)
    (hAllowed : runOn (authorizer (.forName call.actor q.verb inner.collection q.asked)) st =
      (.ok .allow, t)) :
    runOn (q.run (inner.authorized authorizer watchBuffer) call) st =
      runOn (q.run inner call) t := by
  have hRun := CollectionRequest.runOn_authorized authorizer inner watchBuffer call (.one q) st
  have hQuestion : (CollectionRequest.one q).question inner.collection call =
      .forName call.actor q.verb inner.collection q.asked := rfl
  have hVerb : (CollectionRequest.one q).verb = q.verb := rfl
  rw [hQuestion, hAllowed, hVerb, if_pos hSupported] at hRun
  dsimp only at hRun
  rw [CollectionRequest.runOn_restrict_one, CollectionRequest.run, CollectionRequest.run,
    runOn_map, runOn_map] at hRun
  obtain ⟨hReply, hState⟩ := Prod.mk.inj hRun
  refine Prod.ext ?_ hState
  generalize (runOn (q.run (inner.authorized authorizer watchBuffer) call) st).1 = x at hReply
  generalize (runOn (q.run inner call) t).1 = y at hReply
  cases x <;> cases y <;> cases hReply <;> rfl

end Tenancy
