import Tenancy.Proofs.Feed.Passage
import Tenancy.Proofs.Store.Restriction

/-!
# What a store does not depend on

Some of the state is no concern of a store, so that states which differ only in that are the same to
it.  A store over a container looks at nothing but its container: if the container cannot tell two
states apart, the store cannot.

* `Store.respects_eq`: every store respects equality.
* `BlobStore.store_respects`: a store over a container respects what the container does.
-/

namespace Tenancy

variable {σ α : Type} {same : σ → σ → Prop}

/-- The container cannot tell states apart that are the same, and neither can its feeds. -/
structure Container.Respects (same : σ → σ → Prop) (c : Container (StateM σ)) : Prop where
  get : ∀ name, Tenancy.Respects same (runOn (c.get name))
  create : ∀ birth name bytes, Tenancy.Respects same (runOn (c.create birth name bytes))
  patch : ∀ name bytes, Tenancy.Respects same (runOn (c.patch name bytes))
  delete : ∀ name, Tenancy.Respects same (runOn (c.delete name))
  list : ∀ options, Tenancy.Respects same (runOn (c.list options))
  watch : ∀ options, Tenancy.Respects same (runOn (c.watch options))
  feeds : ∀ options st feed t, runOn (c.watch options) st = (.ok feed, t) →
    Tenancy.Respects same feed.receive.run ∧ Tenancy.Respects same feed.cancel.run

theorem MemoryContainer.container_respects {p : Part σ MemoryContainer} (h : p.Matters same) :
    (container p.cell).Respects same where
  get name := h.respects_cell (get name)
  create birth name bytes := h.respects_cell (create birth name bytes)
  patch name bytes := h.respects_cell (patch name bytes)
  delete name := h.respects_cell (delete name)
  list options := h.respects_cell (list options)
  watch options := respects_runOn_lift
    (respects_bind (h.respects_cell (openFeed options)) fun _ => respects_pure _)
  feeds options st feed t hRun := by
    obtain ⟨hOpened, -⟩ := Prod.mk.inj hRun
    obtain rfl := Except.ok.inj hOpened
    exact ⟨h.respects_cell (receive _), h.respects_cell (closeFeed _)⟩

def CollectionRequest.Respects (same : σ → σ → Prop) : CollectionRequest σ α → Prop
  | .one (.write (.update _ mutate _)) => ∀ old, Tenancy.Respects same (runOn (mutate old))
  | _ => True

/-- The store cannot tell states apart that are the same, and neither can its watches. -/
structure Store.Respects (same : σ → σ → Prop) (store : Store (StateM σ) α) : Prop where
  calls : ∀ (call : Call) (q : CollectionRequest σ α), q.Respects same →
    Tenancy.Respects same (runOn (q.run store call))
  watches : ∀ (call : Call) (q : CollectionRequest σ α) st w t,
    runOn (q.run store call) st = (.ok (.watch w), t) → w.Respects same

theorem Watch.respects_eq (w : Watch (StateM σ) (Resource α)) : w.Respects Eq := by
  induction w with
  | relayed source r => exact ⟨fun _ _ hEq => hEq ▸ ⟨rfl, rfl⟩, fun _ _ hEq => hEq ▸ ⟨rfl, rfl⟩⟩
  | filtered inner test r ih => exact ⟨ih, fun _ _ _ hEq => hEq ▸ ⟨rfl, rfl⟩⟩

/-- If no two states are the same, there is nothing to respect. -/
theorem Store.respects_eq (store : Store (StateM σ) α) : store.Respects Eq where
  calls _ _ _ _ _ hEq := hEq ▸ ⟨rfl, rfl⟩
  watches _ _ _ w _ _ := w.respects_eq

namespace BlobStore

variable {s : BlobStore (StateM σ) α} (hContainer : s.container.Respects same)

include hContainer

theorem respects_get (name : String) : Tenancy.Respects same (runOn (s.get name)) := by
  refine respects_runOn_bind (respects_runOn_ofExcept _) fun _ => ?_
  refine respects_runOn_bind (respects_runOn_adapt _ (hContainer.get name)) fun entry => ?_
  exact respects_runOn_ofExcept _

theorem respects_list (options : ListOptions) :
    Tenancy.Respects same (runOn (s.list options)) := by
  refine respects_runOn_bind (respects_runOn_ofExcept _) fun _ => ?_
  refine respects_runOn_bind (respects_runOn_adapt _ (hContainer.list _)) fun page => ?_
  exact respects_runOn_bind (respects_runOn_ofExcept _) fun items => respects_runOn_pure _

theorem respects_watch (options : ListOptions) :
    Tenancy.Respects same (runOn (s.watch options)) := by
  refine respects_runOn_bind (respects_runOn_ofExcept _) fun _ => ?_
  refine respects_runOn_bind (respects_runOn_adapt _ (hContainer.watch _)) fun feed => ?_
  exact respects_runOn_pure _

theorem respects_createEntry (birth : Birth) (name : String) (payload : α) :
    Tenancy.Respects same (runOn (s.createEntry birth name payload)) := by
  refine respects_runOn_bind (respects_runOn_ofExcept _) fun bytes => ?_
  refine respects_runOn_bind (respects_runOn_adapt _ (hContainer.create _ _ _)) fun entry => ?_
  exact respects_runOn_ofExcept _

theorem respects_create (call : Call) (r : Resource α) :
    Tenancy.Respects same (runOn (s.create call r)) := by
  refine respects_runOn_bind (respects_runOn_ofExcept _) fun _ => ?_
  refine respects_runOn_bind (respects_runOn_ofExcept _) fun _ => ?_
  exact respects_createEntry hContainer _ _ _

theorem respects_find (name : String) : Tenancy.Respects same (runOn (s.find name)) := by
  have hGet : Tenancy.Respects same (runOn
      (ExceptT.lift (s.container.get name).run : ExceptT StoreError (StateM σ) _)) :=
    respects_runOn_lift (hContainer.get name)
  refine respects_runOn_bind hGet fun found => ?_
  rcases found with (name | name | reason | reason) | entry
  · exact respects_runOn_pure _
  · exact respects_runOn_throw _
  · exact respects_runOn_throw _
  · exact respects_runOn_throw _
  · exact respects_runOn_bind (respects_runOn_ofExcept _) fun r => respects_runOn_pure _

theorem respects_replace (name : String) (old : α) {mutate : Mutation (StateM σ) α}
    (hMutate : ∀ old, Tenancy.Respects same (runOn (mutate old))) :
    Tenancy.Respects same (runOn (s.replace name old mutate)) := by
  refine respects_runOn_bind (hMutate _) fun payload => ?_
  refine respects_runOn_bind (respects_runOn_ofExcept _) fun bytes => ?_
  refine respects_runOn_bind (respects_runOn_adapt _ (hContainer.patch _ _)) fun entry => ?_
  exact respects_runOn_ofExcept _

theorem respects_update (call : Call) (name : String) {mutate : Mutation (StateM σ) α}
    (hMutate : ∀ old, Tenancy.Respects same (runOn (mutate old))) (allowCreate : Bool) :
    Tenancy.Respects same (runOn (s.update call name mutate allowCreate)) := by
  refine respects_runOn_bind (respects_runOn_ofExcept _) fun _ => ?_
  refine respects_runOn_bind (respects_find hContainer name) fun found => ?_
  cases found with
  | some old =>
    exact respects_runOn_bind (respects_replace hContainer name old.payload hMutate) fun r =>
      respects_runOn_pure _
  | none =>
    cases allowCreate with
    | false => exact respects_runOn_throw _
    | true =>
      refine respects_runOn_bind (respects_runOn_ofExcept _) fun _ => ?_
      refine respects_runOn_bind (hMutate _) fun payload => ?_
      exact respects_runOn_bind (respects_createEntry hContainer _ _ _) fun r =>
        respects_runOn_pure _

theorem respects_delete (name : String) : Tenancy.Respects same (runOn (s.delete name)) := by
  refine respects_runOn_bind (respects_runOn_ofExcept _) fun _ => ?_
  refine respects_runOn_bind (respects_runOn_adapt _ (hContainer.get name)) fun entry => ?_
  refine respects_runOn_bind (respects_runOn_ofExcept _) fun lastKnown => ?_
  refine respects_runOn_bind (respects_runOn_adapt _ (hContainer.delete name)) fun _ => ?_
  exact respects_runOn_pure _

theorem watch_respects {options : ListOptions} {st t : σ} {w : Watch (StateM σ) (Resource α)}
    (hRun : runOn (s.watch options) st = (.ok w, t)) : w.Respects same := by
  rw [watch, runOn_bind, runOn_ofExcept] at hRun
  cases hRequire : s.capabilities.require .watch with
  | error e =>
    rw [hRequire] at hRun
    cases hRun
  | ok =>
    rw [hRequire] at hRun
    simp only [runOn_bind, access, runOn_adapt] at hRun
    rcases hFeed : runOn (s.container.watch options) st with ⟨_ | feed, u⟩
    · rw [hFeed] at hRun
      cases hRun
    · rw [hFeed] at hRun
      obtain ⟨hOpened, -⟩ := Prod.mk.inj hRun
      obtain rfl := Except.ok.inj hOpened
      obtain ⟨hReceive, hCancel⟩ := hContainer.feeds options st feed u hFeed
      exact ⟨respects_map s.taken hReceive, hCancel⟩

theorem store_respects : s.store.Respects same where
  calls call q hRequest := by
    match q with
    | .one (.get name) =>
      exact respects_runOn_map _ (respects_runOn_map _ (respects_get hContainer name))
    | .one (.write (.create r)) =>
      exact respects_runOn_map _ (respects_runOn_map _ (respects_create hContainer call r))
    | .one (.write (.update name mutate allowCreate)) =>
      exact respects_runOn_map _ (respects_update hContainer call name hRequest allowCreate)
    | .one (.delete name) => exact respects_runOn_map _ (respects_delete hContainer name)
    | .list options => exact respects_runOn_map _ (respects_list hContainer options)
    | .watch options => exact respects_runOn_map _ (respects_watch hContainer options)
  watches call q st w t hRun := by
    match q with
    | .one q =>
      obtain ⟨_, -, hReply⟩ := runOn_map_eq_ok hRun
      cases hReply
    | .list options =>
      obtain ⟨_, -, hReply⟩ := runOn_map_eq_ok hRun
      cases hReply
    | .watch options =>
      obtain ⟨_, hWatch, hReply⟩ := runOn_map_eq_ok hRun
      obtain rfl := Reply.watch.inj hReply
      exact watch_respects hContainer hWatch

end BlobStore

end Tenancy
