import Tenancy.Bench.Script
import Tenancy.Bench.World
import Tenancy.Organization.Ownership
import Tenancy.Store.Authorized
import Tenancy.Store.Blob

/-!
# Stacks of stores

A stack is a store over the container of a collection and what is wrapped around it, each layer of
which can be called.
-/

namespace Tenancy

/-- The codec `inner` that refuses payloads whose bytes contain a word. -/
def Codec.refusing {α : Type} (inner : Codec α) (word : Bytes) (contentType : String) :
    Codec α where
  encode x := do
    let bytes ← inner.encode x
    if containsWord word bytes then .error (.encode "refused") else .ok bytes
  decode := inner.decode
  contentType := contentType
where
  /-- The word stands somewhere in the bytes. -/
  containsWord (word : Bytes) : Bytes → Bool
    | [] => word.isEmpty
    | b :: bytes => word.isPrefixOf (b :: bytes) || containsWord word bytes

inductive EffectChoice where
  | ownerRole
  | ownerBinding
  | marker (m : Marker)

inductive AuthorizerChoice where
  | none
  | allowAll
  | grants
  | script (rules : List ScriptRule)

/-- What a stack is built from. -/
structure StackPlan (α : Type) where
  collection : Collection
  codec : Codec α
  config : StoreConfig
  /-- The verbs to which the store is narrowed. -/
  capabilities : Option Capabilities
  /-- There is a store over the container; else one that declares verbs and supports none. -/
  isSupported : Bool
  /-- The side effects of a store that provisions, if there is one. -/
  effects : Option (List EffectChoice)
  authorizer : AuthorizerChoice
  watchBuffer : Nat

structure Stack (α : Type) where
  raw : Store Bench α
  provisioned : Store Bench α
  top : Store Bench α
  /-- The descriptions of the container and of the layers. -/
  descriptions : List String

namespace StackPlan

variable {α : Type}

/-- The markers among the side effects in their order. -/
def markers (plan : StackPlan α) : List Marker :=
  (plan.effects.getD []).filterMap fun
    | .marker m => some m
    | _ => none

/-- The side effects of a list of choices, the next marker having the place `i` on the board. -/
def sideEffects (collection : Collection) : Nat → List EffectChoice → List (SideEffect Bench α)
  | _, [] => []
  | i, .ownerRole :: rest =>
    ownerRoleEffect Bench.grants collection :: sideEffects collection i rest
  | i, .ownerBinding :: rest =>
    ownerBindingEffect Bench.grants collection :: sideEffects collection i rest
  | i, .marker m :: rest =>
    markerEffect Bench.board i m.label :: sideEffects collection (i + 1) rest

def authorizer? : AuthorizerChoice → Option (Authorizer Bench)
  | .none => Option.none
  | .allowAll => some .allowAll
  | .grants => some Bench.authorizer
  | .script rules => some (.script rules)

/-- The world before anything has happened. -/
def world (plan : StackPlan α) (superusers : List String) (capacity : Nat) (lockstep : Bool) :
    World :=
  { World.fresh superusers capacity with
    board := { markers := plan.markers }, lockstep := lockstep }

def blobStore (plan : StackPlan α) : BlobStore Bench α where
  collection := plan.collection
  container := Bench.container plan.collection
  codec := plan.codec
  config := plan.config
  capabilities := (plan.capabilities.map Capabilities.all.inter).getD .all

def build (plan : StackPlan α) (w : World) : Stack α :=
  let blob := plan.blobStore
  let raw := if plan.isSupported then blob.store
    else .unsupported plan.collection (plan.capabilities.getD .all)
  let containerText := (w.container plan.collection).describe
  let rawTexts := if plan.isSupported then [blob.describe] else []
  let (provisioned, provisionedTexts) := match plan.effects with
    | none => (raw, [])
    | some choices =>
      let effects := sideEffects plan.collection 0 choices
      (raw.provisioned effects,
        [Store.describeProvisioned effects ++ " " ++ toString effects.length])
  let (top, topTexts) := match authorizer? plan.authorizer with
    | none => (provisioned, [])
    | some authorizer =>
      let top := provisioned.authorized (authorizer.recorded Bench.questions) plan.watchBuffer
      (top, [top.describeAuthorized])
  ⟨raw, provisioned, top, containerText :: rawTexts ++ provisionedTexts ++ topTexts⟩

end StackPlan

end Tenancy
