import Tenancy.Organization.InMemory
import Tenancy.Proofs.Store.Request

/-!
# What brings a resource into being

Behind an authorizer a resource comes into being in two ways: by a creation, for which the
authorizer was asked about the verb `create`, and by an update that may create, for which it was
asked about the verb `update` and nothing else.

* `absent_created_only_if_allowed`: there is no other way.
* `update_founds_without_create`: an actor who may only update founds an organization and owns it.
-/

namespace Tenancy

variable {σ α β : Type}

def Authorizer.Allows (authorizer : Authorizer (StateM σ)) (st : σ) (q : AccessRequest) : Prop :=
  (runOn (authorizer q) st).1 = .ok .allow

/-- A store over a container, with any layers of side effects on top. -/
inductive Layered {m : Type → Type} [Monad m] (s : BlobStore m α) : Store m α → Prop
  | plain : Layered s s.store
  | provisioned (inner : Store m α) (effects : List (SideEffect m α)) (hInner : Layered s inner) :
      Layered s (inner.provisioned effects)

theorem Layered.collection_eq {m : Type → Type} [Monad m] {s : BlobStore m α} {store : Store m α}
    (h : Layered s store) : store.collection = s.collection := by
  induction h with
  | plain => rfl
  | provisioned inner effects _ ih => exact ih

namespace StoreRequest

/-- The name that an authorizer is asked about.  A creation whose name is to be generated has none
yet, which asks about the whole collection. -/
def asked : StoreRequest σ α → String
  | .get name => name
  | .write (.create r) => r.name
  | .write (.update name ..) => name
  | .delete name => name

end StoreRequest

namespace Store

variable {authorizer : Authorizer (StateM σ)} {call : Call} {st : σ}

theorem authorize_succeeds {collection : Collection} {verb : Verb} {name : String} {t : σ}
    (h : runOn (authorize authorizer collection call verb (some name)) st = (.ok (), t)) :
    authorizer.Allows st (.forName call.actor verb collection name) ∧
      t = (runOn (authorizer (.forName call.actor verb collection name)) st).2 := by
  rw [Authorizer.Allows]
  rw [runOn_authorize, question_some] at h
  rcases hAnswer : runOn (authorizer (.forName call.actor verb collection name)) st with
    ⟨e | reason | reason, u⟩
  · rw [hAnswer] at h
    cases h
  · rw [hAnswer] at h
    exact ⟨rfl, (congrArg Prod.snd h).symm⟩
  · rw [hAnswer] at h
    cases h

theorem guarded_succeeds {capabilities : Capabilities} {collection : Collection} {verb : Verb}
    {name : String} {x : ExceptT StoreError (StateM σ) β}
    (h : problem? (runOn (do
      capabilities.require verb
      authorize authorizer collection call verb (some name)
      x : ExceptT StoreError (StateM σ) β) st).1 = none) :
    authorizer.Allows st (.forName call.actor verb collection name) ∧
      problem? (runOn x (runOn (authorizer (.forName call.actor verb collection name)) st).2).1 =
        none := by
  obtain ⟨_, s, hRequire, h⟩ := bind_succeeds h
  obtain ⟨_, t, hAuthorize, h⟩ := bind_succeeds h
  obtain rfl : st = s := congrArg Prod.snd hRequire
  obtain ⟨hAllows, rfl⟩ := authorize_succeeds hAuthorize
  exact ⟨hAllows, h⟩

theorem authorized_succeeds {inner : Store (StateM σ) α} {watchBuffer : Nat}
    {q : StoreRequest σ α}
    (h : problem? (runOn (q.run (inner.authorized authorizer watchBuffer) call) st).1 = none) :
    ∃ request, request = .forName call.actor q.verb inner.collection q.asked ∧
      authorizer.Allows st request ∧
      problem? (runOn (q.run inner call) (runOn (authorizer request) st).2).1 = none := by
  refine ⟨_, rfl, ?_⟩
  match q with
  | .get name => exact (guarded_succeeds (map_succeeds.1 h)).imp_right map_succeeds.2
  | .write (.create r) => exact (guarded_succeeds (map_succeeds.1 h)).imp_right map_succeeds.2
  | .write (.update name mutate allowCreate) => exact guarded_succeeds h
  | .delete name => exact guarded_succeeds h

/-- A call to a store with side effects succeeds only if it does so in the inner store. -/
theorem provisioned_succeeds {inner : Store (StateM σ) α} {effects : List (SideEffect (StateM σ) α)}
    {q : StoreRequest σ α}
    (h : problem? (runOn (q.run (inner.provisioned effects) call) st).1 = none) :
    problem? (runOn (q.run inner call) st).1 = none := by
  match q with
  | .get name => exact h
  | .write (.create r) =>
    obtain ⟨created, t, hRun, -⟩ := bind_succeeds (map_succeeds.1 h)
    exact map_succeeds.2 (congrArg (fun x => problem? x.1) hRun)
  | .write (.update name mutate allowCreate) =>
    obtain ⟨outcome, t, hRun, -⟩ := bind_succeeds h
    exact congrArg (fun x => problem? x.1) hRun
  | .delete name =>
    obtain ⟨outcome, t, hRun, -⟩ := bind_succeeds h
    exact congrArg (fun x => problem? x.1) hRun

end Store

/-! ## What is done about an absent name -/

inductive StoreRequest.MayCreate : StoreRequest σ α → Prop
  | create (r : Resource α) : MayCreate (.write (.create r))
  | update (name : String) (mutate : Mutation (StateM σ) α) :
      MayCreate (.write (.update name mutate true))

theorem BlobStore.mayCreate_of_absent {s : BlobStore (StateM σ) α} {p : Part σ MemoryContainer}
    (hContainer : s.container = MemoryContainer.container p.cell) {call : Call}
    {q : StoreRequest σ α} {st : σ} (hAbsent : (p.read st).entries.get? (q.target call) = none)
    (h : problem? (runOn (q.run s.store call) st).1 = none) : q.MayCreate := by
  cases hSupported : s.capabilities.supports q.verb with
  | false =>
    rw [runOn_unsupported s hSupported] at h
    cases h
  | true =>
    match q with
    | .get name =>
      change (p.read st).entries.get? name = none at hAbsent
      have hGet : problem? (runOn (s.get name) st).1 = none := map_succeeds.1 h
      simp only [runOn_get hContainer hSupported, hAbsent] at hGet
      cases hGet
    | .write (.create r) => exact .create r
    | .write (.update name mutate true) => exact .update name mutate
    | .write (.update name mutate false) =>
      change (p.read st).entries.get? name = none at hAbsent
      change problem? (runOn (s.update call name mutate false) st).1 = none at h
      simp only [runOn_update hContainer hSupported, hAbsent] at h
      cases h
    | .delete name =>
      change (p.read st).entries.get? name = none at hAbsent
      change problem? (runOn (s.delete name) st).1 = none at h
      simp only [runOn_delete hContainer hSupported, hAbsent] at h
      cases h

theorem Layered.succeeds_below {s : BlobStore (StateM σ) α} {store : Store (StateM σ) α}
    (hLayered : Layered s store) {call : Call} {q : StoreRequest σ α} {st : σ}
    (h : problem? (runOn (q.run store call) st).1 = none) :
    problem? (runOn (q.run s.store call) st).1 = none := by
  induction hLayered with
  | plain => exact h
  | provisioned inner effects _ ih => exact ih (Store.provisioned_succeeds h)

/-- Let a request succeed behind an authorizer that leaves the container alone, where the name that
it is about was absent.  Then it is a creation, and the authorizer allowed the actor to create the
resource of this name or any resource; or it is an update that may create, and the authorizer
allowed the actor to update the resource of this name. -/
theorem absent_created_only_if_allowed (s : BlobStore (StateM σ) α) (p : Part σ MemoryContainer)
    (hContainer : s.container = MemoryContainer.container p.cell) (store : Store (StateM σ) α)
    (hLayered : Layered s store) (authorizer : Authorizer (StateM σ))
    (hSpares : ∀ request st, p.read (runOn (authorizer request) st).2 = p.read st)
    (watchBuffer : Nat) (call : Call) (q : StoreRequest σ α) (st : σ)
    (hAbsent : (p.read st).entries.get? (q.target call) = none)
    (hSuccess : problem? (runOn (q.run (store.authorized authorizer watchBuffer) call) st).1 =
      none) :
    (∃ r, q = .write (.create r) ∧
      (authorizer.Allows st (.forName call.actor .create s.collection (q.target call)) ∨
        authorizer.Allows st (.forCollection call.actor .create s.collection))) ∨
    ∃ name mutate, q = .write (.update name mutate true) ∧
      authorizer.Allows st (.forName call.actor .update s.collection name) := by
  obtain ⟨request, hRequest, hAllows, hInner⟩ := Store.authorized_succeeds hSuccess
  rw [hLayered.collection_eq] at hRequest
  have hStill : (p.read (runOn (authorizer request) st).2).entries.get? (q.target call) = none := by
    rwa [hSpares]
  subst hRequest
  cases BlobStore.mayCreate_of_absent hContainer hStill (hLayered.succeeds_below hInner) with
  | create r =>
    refine .inl ⟨r, rfl, ?_⟩
    cases hName : r.name.isEmpty with
    | true =>
      have hCollection : AccessRequest.forName call.actor .create s.collection r.name =
          .forCollection call.actor .create s.collection := by
        rw [AccessRequest.forName, hName, if_pos rfl, AccessRequest.forCollection]
      exact .inr (hCollection ▸ hAllows)
    | false =>
      have hTarget : StoreRequest.target call (.write (.create r) : StoreRequest σ α) = r.name := by
        have hGiven : r.metadata.name.isEmpty = false := hName
        rw [StoreRequest.target, BlobStore.assignedName, hGiven]
        cases r.metadata.generateName <;> rfl
      exact .inl (hTarget.symm ▸ hAllows)
  | update name mutate => exact .inr ⟨name, mutate, rfl, hAllows⟩

/-! ## Founding by an update -/

/-- A table in which "alice" may update the organization "acme", and "bob" may create it. -/
def GrantTable.updaters : GrantTable where
  roles := .ofList [
    ("updater", ⟨"updater", .singleton (.named .organization .update "acme"), ⟨0, 0⟩⟩),
    ("creator", ⟨"creator", .singleton (.named .organization .create "acme"), ⟨0, 0⟩⟩)]
  bindings := .ofList [("alice", ⟨"alice", "updater", "alice", ⟨0, 0⟩⟩),
    ("bob", ⟨"bob", "creator", "bob", ⟨0, 0⟩⟩)]
  superusers := []

/-- The store of organizations below the owner grants of the API in memory. -/
def BlobStore.ofOrganizations : BlobStore (StateM ApiState) Organization :=
  ⟨.organization, MemoryContainer.container (ApiState.container .organization).cell,
    .json Organization.format, {}, .all⟩

theorem absent_created_only_if_allowed_bob :
    let bob : Call := ⟨⟨"bob", []⟩, ⟨0, 0⟩, "1", "abcde"⟩
    let request : StoreRequest ApiState Organization :=
      .write (.create (.named "acme" (.new "Acme" "bob")))
    let api := ResourceApi.inMemory {}
    problem? (runOn (request.run api.organizations bob) (.fresh {} .updaters)).1 = none ∧
      ((GrantTable.authorizer ApiState.table.cell).Allows (.fresh {} .updaters)
          (.forName bob.actor .create .organization "acme") ∨
        (GrantTable.authorizer ApiState.table.cell).Allows (.fresh {} .updaters)
          (.forCollection bob.actor .create .organization)) := by
  intro bob request api
  have hSuccess : problem? (runOn (request.run api.organizations bob) (.fresh {} .updaters)).1 =
    none := by decide +kernel
  have hAllowed := absent_created_only_if_allowed BlobStore.ofOrganizations
    (ApiState.container .organization) rfl _ (.provisioned _ _ .plain)
    (GrantTable.authorizer ApiState.table.cell) (fun _ _ => rfl) _ bob request
    (.fresh {} .updaters) rfl hSuccess
  rcases hAllowed with ⟨r, -, hAllows⟩ | ⟨name, mutate, hUpdate, -⟩
  · exact ⟨hSuccess, hAllows⟩
  · exact absurd (StoreRequest.write.inj hUpdate) nofun

/-- The actor is refused the verb `create` for the name and for the collection, but an update that
may create passes; then there is an organization, and the actor may do everything to it. -/
theorem update_founds_without_create :
    let alice : Call := ⟨⟨"alice", []⟩, ⟨0, 0⟩, "1", "abcde"⟩
    let api := ResourceApi.inMemory {}
    let before : ApiState := .fresh {} .updaters
    let run := runOn (api.organizations.update alice "acme"
      (.ofFunction fun _ => .ok (.new "Acme" "alice")) true) before
    (before.containers .organization).entries.contains "acme" = false ∧
    (before.grants.decide (.forName alice.actor .create .organization "acme")).isAllowed = false ∧
    (before.grants.decide (.forCollection alice.actor .create .organization)).isAllowed = false ∧
    problem? run.1 = none ∧
    (run.2.containers .organization).entries.contains "acme" = true ∧
    (run.2.grants.decide (.forName alice.actor .delete .organization "acme")).isAllowed = true := by
  decide +kernel

end Tenancy
