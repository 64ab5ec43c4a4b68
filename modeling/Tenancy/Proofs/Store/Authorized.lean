import Tenancy.Access.GrantTable
import Tenancy.Proofs.Store.BlobCalls
import Tenancy.Store.Authorized

/-!
# Calls behind an authorizer

A call of a supported verb begins with one question to the authorizer, and goes on to the inner
store only if the answer is to allow it (`Store.runOn_guarded`).  An authorizer that only looks
(`Authorizer.IsPassive`) either lets a call through to the inner store or refuses it, and a refused
call leaves the state as it is.
-/

namespace Tenancy

variable {σ α β : Type}

def Authorizer.IsPassive (authorizer : Authorizer (StateM σ)) : Prop :=
  ∀ q s, (runOn (authorizer q) s).2 = s

/-- The call was refused before it came to `inner`, or went through to it. -/
inductive Guarded (inner : ExceptT StoreError (StateM σ) β) (s : σ) :
    Except StoreError β × σ → Prop
  | refused (e : StoreError) : Guarded inner s (.error e, s)
  | passed : Guarded inner s (runOn inner s)

namespace Store

/-- What the authorizer is asked about a call: about the object of a name, or about the collection
if there is no name or the name is empty. -/
def question (collection : Collection) (call : Call) (verb : Verb) (name : Option String) :
    AccessRequest :=
  ⟨call.actor, verb, ⟨collection, name.filter fun name => !name.isEmpty⟩⟩

theorem question_some (collection : Collection) (call : Call) (verb : Verb) (name : String) :
    question collection call verb (some name) = .forName call.actor verb collection name := by
  rw [question, AccessRequest.forName, Option.filter]
  cases name.isEmpty <;> rfl

variable {authorizer : Authorizer (StateM σ)}

theorem runOn_authorize (collection : Collection) (call : Call) (verb : Verb)
    (name : Option String) (st : σ) :
    runOn (authorize authorizer collection call verb name) st =
      match runOn (authorizer (question collection call verb name)) st with
      | (.ok .allow, t) => (.ok (), t)
      | (.ok (.deny reason), t) => (.error (.forbidden reason), t)
      | (.error e, t) => (.error (.internal ("authorizer failed: " ++ e.message)), t) := by
  cases name with
  | none =>
    have hQuestion : question collection call verb none =
        .forCollection call.actor verb collection := rfl
    simp only [authorize, runOn_bind, runOn_lift, run_run_eq_runOn, hQuestion]
    rcases runOn (authorizer _) st with ⟨e | _ | reason, t⟩ <;> rfl
  | some name =>
    simp only [authorize, runOn_bind, runOn_lift, run_run_eq_runOn, question_some]
    rcases runOn (authorizer _) st with ⟨e | _ | reason, t⟩ <;> rfl

theorem runOn_guarded {capabilities : Capabilities} {verb : Verb}
    (hSupported : capabilities.supports verb = true) (collection : Collection) (call : Call)
    (name : Option String) (inner : ExceptT StoreError (StateM σ) β) (st : σ) :
    runOn (do
      capabilities.require verb
      authorize authorizer collection call verb name
      inner : ExceptT StoreError (StateM σ) β) st =
      match runOn (authorizer (question collection call verb name)) st with
      | (.ok .allow, t) => runOn inner t
      | (.ok (.deny reason), t) => (.error (.forbidden reason), t)
      | (.error e, t) => (.error (.internal ("authorizer failed: " ++ e.message)), t) := by
  rw [runOn_bind, runOn_ofExcept, Capabilities.require_eq_ok hSupported]
  simp only [runOn_bind, runOn_authorize]
  rcases runOn (authorizer _) st with ⟨e | _ | reason, t⟩ <;> rfl

variable (hPassive : authorizer.IsPassive)

include hPassive

theorem guarded_call (inner : ExceptT StoreError (StateM σ) β) (capabilities : Capabilities)
    (collection : Collection) (call : Call) (verb : Verb) (name : Option String) (s : σ) :
    Guarded inner s (runOn (do
      capabilities.require verb
      authorize authorizer collection call verb name
      inner) s) := by
  cases hSupported : capabilities.supports verb with
  | false =>
    have hRefused : runOn (do
        capabilities.require verb
        authorize authorizer collection call verb name
        inner : ExceptT StoreError (StateM σ) β) s = _ := Capabilities.runOn_require hSupported _ s
    rw [hRefused]
    exact .refused _
  | true =>
    have hSame := hPassive (question collection call verb name) s
    rw [runOn_guarded hSupported]
    rcases hAnswer : runOn (authorizer (question collection call verb name)) s with
      ⟨e | _ | reason, t⟩ <;> obtain rfl : t = s := by rw [hAnswer] at hSame; exact hSame
    · exact .refused _
    · exact .passed
    · exact .refused _

variable (inner : Store (StateM σ) α) (watchBuffer : Nat) (call : Call)

theorem authorized_create (resource : Resource α) (s : σ) :
    Guarded (inner.create call resource) s
      (runOn ((inner.authorized authorizer watchBuffer).create call resource) s) :=
  guarded_call hPassive _ _ _ _ _ _ _

theorem authorized_update (name : String) (mutate : Mutation (StateM σ) α) (allowCreate : Bool)
    (s : σ) :
    Guarded (inner.update call name mutate allowCreate) s
      (runOn ((inner.authorized authorizer watchBuffer).update call name mutate allowCreate) s) :=
  guarded_call hPassive _ _ _ _ _ _ _

theorem authorized_delete (name : String) (s : σ) :
    Guarded (inner.delete call name) s
      (runOn ((inner.authorized authorizer watchBuffer).delete call name) s) :=
  guarded_call hPassive _ _ _ _ _ _ _

end Store

theorem GrantTable.isPassive_authorizer (p : Part σ GrantTable) :
    (GrantTable.authorizer p.cell).IsPassive := fun _ s => p.write_read s

end Tenancy
