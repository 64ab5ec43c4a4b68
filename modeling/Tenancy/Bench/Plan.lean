import Tenancy.Bench.Change
import Tenancy.Bench.Stack
import Tenancy.Billing.Scavenger
import Tenancy.Json.Query
import Tenancy.Organization.Account
import Tenancy.Organization.Role
import Tenancy.Time.Reader

/-!
# Plans

What is set up and ordered on a bench, read from JSON objects: errors that are to be met, rules of
scripted authorizers, side effects, changes of payloads, configurations and whole stacks.  What is
missing in an object has its default, so every object is some plan.
-/

namespace Tenancy

/-- The verb that a text spells. -/
def Verb.ofPlan (s : String) : Verb := (Verb.parse? s).getD .get

/-- The collection that a text spells. -/
def Collection.ofPlan (s : String) : Collection := (Collection.parse? s).getD .organization

/-- The permission that a text writes. -/
def Permission.ofPlan (s : String) : Permission :=
  (Permission.parse? s).getD (.global .organization .get)

/-- The role in an organization that a text names. -/
def OrganizationRole.ofPlan (s : String) : OrganizationRole :=
  (OrganizationRole.parse? s).getD .standard

/-- The time that a text writes. -/
def Time.ofPlan (s : String) : Time := (Time.read s).toOption.getD ⟨0, 0⟩

/-- The actor of a call: a name, or a name with groups. -/
def Actor.ofPlan (j : Json) : Actor :=
  match j.field "actor" with
  | .string name => ⟨name, []⟩
  | .object members => ⟨(Json.object members).textAt "name", (Json.object members).textsAt "groups"⟩
  | _ => ⟨"anon", []⟩

/-- The bytes of pairs of hexadecimal digits. -/
def bytesOfDigits : List Char → Bytes
  | a :: b :: rest =>
    UInt8.ofNat ((Uid.hexValue? a).getD 0 * 16 + (Uid.hexValue? b).getD 0) :: bytesOfDigits rest
  | _ => []

/-- Bytes: a text stands for its UTF-8 form, other bytes are given by their digits. -/
def bytesOfPlan : Json → Bytes
  | .string s => utf8 s
  | j => bytesOfDigits (j.textAt "hex").toList

mutual

/-- The error that an object describes; there may be none if it is made of others. -/
def StoreError.ofPlan? : Json → Option StoreError
  | .object members =>
    let j := Json.object members
    let collection := Collection.ofPlan (j.textAt "resource")
    match j.textAt "kind" with
    | "NotFound" => some (.notFound collection (j.textAt "name"))
    | "AlreadyExists" => some (.alreadyExists collection (j.textAt "name"))
    | "Forbidden" => some (.forbidden (j.textAt "message"))
    | "Conflict" => some (.conflict (j.textAt "message"))
    | "Internal" => some (.internal (j.textAt "message"))
    | "ValidationFailed" => some (.validationFailed (j.textAt "message"))
    | "MethodNotSupported" => some (.methodNotSupported (Verb.ofPlan (j.textAt "verb")))
    | "Aggregate" => StoreError.combine (StoreError.partsOfPlan members)
    | _ => none
  | _ => none

/-- The errors of which an error is made. -/
def StoreError.partsOfPlan : List (String × Json) → List (Option StoreError)
  | [] => []
  | (key, value) :: rest =>
    match value with
    | .array items =>
      if key = "errors" then StoreError.allOfPlan items else StoreError.partsOfPlan rest
    | _ => StoreError.partsOfPlan rest

def StoreError.allOfPlan : List Json → List (Option StoreError)
  | [] => []
  | j :: rest => StoreError.ofPlan? j :: StoreError.allOfPlan rest

end

def ContainerError.ofPlan (j : Json) : ContainerError :=
  let message := j.textAt "message"
  match j.textAt "kind" with
  | "NotFound" => .notFound message
  | "AlreadyExists" => .alreadyExists message
  | "Invalid" => .invalid message
  | _ => .unavailable message

def GrantError.ofPlan (j : Json) : GrantError :=
  let message := j.textAt "message"
  let object := match j.textAt? "object" with
    | none => Role.kind
    | some kind => if kind = Role.kind ∨ kind = RoleBinding.kind then kind else "Other"
  match j.textAt "kind" with
  | "NotFound" => .notFound object message
  | "AlreadyExists" => .alreadyExists object message
  | _ => .unavailable message

def BillingError.ofPlan (j : Json) : BillingError :=
  match j.textAt "kind" with
  | "RecordNotFound" => .recordNotFound (j.intAt "id")
  | "EntityNotFound" => .entityNotFound (j.intAt "id")
  | "Rejected" => .rejected (j.textAt "message")
  | _ => .unavailable (j.textAt "message")

/-- The container operation of a name. -/
def ContainerOp.ofPlan : String → ContainerOp
  | "get" => .get
  | "create" => .create
  | "patch" => .patch
  | "delete" => .delete
  | "list" => .list
  | _ => .watch

/-- The operation on grants of a name. -/
def GrantOp.ofPlan : String → GrantOp
  | "create_role" => .createRole
  | "get_role" => .getRole
  | "delete_role" => .deleteRole
  | "create_binding" => .createBinding
  | "get_binding" => .getBinding
  | _ => .deleteBinding

def Change.ofPlan (j : Json) : Change :=
  match j.get? "error", j.get? "set", j.textAt? "append", j.natAt? "wrap" with
  | some e, _, _, _ => .fail ((StoreError.ofPlan? e).getD (.internal "none"))
  | _, some value, _, _ => .replaceBy value
  | _, _, some text, _ => .append text
  | _, _, _, some count => .wrap count
  | _, _, _, _ => .merge (Change.membersOf (j.get? "merge"))

/-- The request that an actor makes: a verb, a collection, and a name if one is given. -/
def AccessRequest.ofPlan (j : Json) (name : Option String) : AccessRequest :=
  let actor := Actor.ofPlan j
  let verb := Verb.ofPlan (j.textAt "verb")
  let collection := Collection.ofPlan (j.textAt "resource")
  match name with
  | some name => .forName actor verb collection name
  | none => .forCollection actor verb collection

def ListOptions.ofPlan (j : Json) : ListOptions :=
  ⟨j.natAt? "limit", j.textAt? "continue", j.flagAt "initial"⟩

def Capabilities.ofPlan : Json → Capabilities
  | .string "NONE" => .none
  | .string "READ_ONLY" => .readOnly
  | .array items => .ofList (items.map fun j => .ofPlan j.asText)
  | _ => .all

def StoreConfig.ofPlan (j : Json) : StoreConfig :=
  let standard : StoreConfig := {}
  ⟨(j.natAt? "watch_buffer_size").getD standard.watchBufferSize,
    (j.natAt? "max_page_size").getD standard.maxPageSize,
    (j.natAt? "change_feed_capacity").getD standard.changeFeedCapacity⟩

def ScavengerConfig.ofPlan (j : Json) : ScavengerConfig :=
  let standard : ScavengerConfig := {}
  ⟨(j.natAt? "grace_period_secs").getD standard.gracePeriodSecs,
    (j.natAt? "interval_secs").getD standard.intervalSecs,
    (j.flagAt? "enabled").getD standard.enabled⟩

def ScriptRule.ofPlan (j : Json) : ScriptRule where
  verb := (j.textAt? "verb").map .ofPlan
  stem := j.textAt? "prefix"
  verdict :=
    match j.textAt? "deny", j.textAt? "unavailable", j.textAt? "invalid" with
    | some reason, _, _ => .ok (.deny reason)
    | _, some reason, _ => .error (.unavailable reason)
    | _, _, some reason => .error (.invalidRequest reason)
    | _, _, _ => .ok .allow

def AuthorizerChoice.ofPlan (j : Json) : AuthorizerChoice :=
  match j.textAt "authorizer" with
  | "allow_all" => .allowAll
  | "grants" => .grants
  | "script" => .script ((j.itemsAt "rules").map .ofPlan)
  | _ => .none

/-- The label of the marker of a number. -/
def markerLabel : Nat → String
  | 0 => "first"
  | 1 => "second"
  | _ => "third"

def EffectChoice.ofPlan (j : Json) : EffectChoice :=
  match j.textAt "kind" with
  | "owner_role" => .ownerRole
  | "owner_binding" => .ownerBinding
  | _ =>
    .marker ⟨markerLabel (j.natAt "n"), j.flagAt "fail_apply", j.flagAt "fail_revert", ∅⟩

/-- The codec of a stack of stores: JSON, or JSON that refuses one word. -/
def codecOfPlan {α : Type} (format : Json.Format α) (j : Json) : Codec α :=
  match j.textAt "codec" with
  | "fussy" => (Codec.json format).refusing (utf8 "unencodable") "application/x-fussy"
  | _ => .json format

def StackPlan.ofPlan {α : Type} (format : Json.Format α) (j : Json) : StackPlan α where
  collection := .ofPlan (j.textAt "resource")
  codec := codecOfPlan format j
  config := .ofPlan (j.field "config")
  capabilities := (j.itemsAt? "capabilities").map fun verbs => .ofPlan (.array verbs)
  isSupported := j.textAt "backend" ≠ "unsupported"
  effects := (j.itemsAt? "effects").map fun effects => effects.map .ofPlan
  authorizer := .ofPlan j
  watchBuffer := (j.natAt? "watch_buffer").getD Channel.defaultCapacity

/-- The kind of record of a name. -/
def RecordKind.ofPlan (s : String) : RecordKind := if s = "invoice" then .invoice else .company

/-- A filter of records; `marker` gives the marker for which a text stands. -/
def SearchFilter.ofPlan (j : Json) (marker : String → String) : SearchFilter where
  ids := (j.itemsAt? "ids").map fun ids => ids.filterMap Json.asInt?
  kind := (j.textAt? "kind").map .ofPlan
  parentId := j.intAt? "parent"
  marker :=
    match j.textAt "marker" with
    | "set" => .set
    | "cleared" => .cleared
    | "equals" => .equals (marker (j.textAt "equals"))
    | _ => .any

def NewRecord.ofPlan (j : Json) : NewRecord where
  kind := .ofPlan (j.textAt "kind")
  name := j.textAt "name"
  email := j.textAt? "email"
  reference := j.textAt "reference"
  parentId := j.intAt? "parent_id"
  marker := j.textAt "marker"

def RecordLink.ofPlan (j : Json) : RecordLink := ⟨j.intAt "company_id", j.intAt "invoice_id"⟩

def Plan.ofPlan (s : String) : Plan := (Plan.all.find? fun p => p.text = s).getD .standard

def BillingAccount.ofPlan (j : Json) : BillingAccount :=
  let a := BillingAccount.new (j.textAt "organization") (j.textAt "legal_name")
    (j.textAt "billing_email")
  { a with
    plan := ((j.textAt? "plan").map .ofPlan).getD a.plan
    currency := (j.textAt? "currency").getD a.currency
    link :=
      match j.field "erp" with
      | .object members => some (.ofPlan (.object members))
      | _ => none }

end Tenancy
