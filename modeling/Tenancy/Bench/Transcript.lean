import Tenancy.Bench.Labels
import Tenancy.Bench.Session
import Tenancy.Billing.Directory
import Tenancy.Organization.Ownership
import Tenancy.Wire.Billing
import Tenancy.Wire.Error
import Tenancy.Wire.Feed
import Tenancy.Wire.Organization

/-!
# Transcripts

How what happens on a bench is written down: resources, entries, events, pages, records and
outcomes as JSON with labels.
-/

namespace Tenancy

/-- Bytes as text, or by their digits if they are none. -/
def bytesJson (bytes : Bytes) : Json :=
  match ofUtf8? bytes with
  | some s => s
  | none => .object [("hex", String.ofList (bytes.flatMap byteDigits))]

/-- A list, its elements written down in order. -/
def listJson {α : Type} {m : Type → Type} [Monad m] (write : α → m Json) (l : List α) : m Json := do
  return .array (← l.mapM write)

/-- A result, its value written down by `write`. -/
def resultTranscript {ε α : Type} (onError : ε → Json) (write : α → Transcript Json) :
    Except ε α → Transcript Json
  | .ok x => write x
  | .error e => pure (onError e)

/-- An object with an identifier and whether it is new. -/
def identified (uid : String) (members : List (String × Json)) : Transcript Json := do
  let (label, isNew) ← Labels.uid uid
  let marks : List (String × Json) := [("uid", label), ("created", if isNew then "new" else "same")]
  return .object (members ++ marks)

def resourceTranscript {α : Type} (format : Json.Format α) (r : Resource α) : Transcript Json :=
  identified ((r.metadata.uid.map Uid.text).getD "")
    [("name", r.name), ("version", .orNull (r.metadata.version.map .string)),
      ("payload", format.toJson r.payload)]

def entryTranscript (e : Entry) : Transcript Json :=
  identified (Uid.ofEntry e.uid).text
    [("name", e.name), ("version", e.version), ("bytes", bytesJson e.bytes)]

/-- An event, its object written down by `write`. -/
def eventTranscript {α : Type} (write : α → Transcript Json) (e : Event α) : Transcript Json := do
  let content : List (String × Json) ← match e with
    | .error status => pure [("status", Status.format.toJson status)]
    | .bookmark version => pure [("version", version)]
    | .added x | .modified x | .deleted x => do pure [("object", ← write x)]
  return .object (("type", e.type.text) :: content)

/-- What a feed has given, an event written down by `write`. -/
def receiptTranscript {α : Type} {m : Type → Type} [Monad m] (write : Event α → m Json)
    (r : Receipt α) : m Json :=
  let message := (r.problem?).getD ""
  match r with
  | .event e => write e
  | .pending => pure "pending"
  | .lagged missed => pure ((plainErrorObject "Lagged" message).add "missed" missed)
  | .closed => pure (plainErrorObject "ChannelClosed" message)

/-- What the consumer of a channel has received. -/
def deliveryJson {α : Type} (write : Event α → Json) : Delivery α → Json
  | .event e => write e
  | .pending => "pending"
  | .closed => "closed"

def pageTranscript {ι : Type} (write : ι → Transcript Json) (p : Page ι) : Transcript Json := do
  return .object [("items", ← listJson write p.items),
    ("continue", .orNull (p.continueToken.map .string)), ("version", p.version)]

def outcomeTranscript {α : Type} (format : Json.Format α) (flag : String) (o : Outcome α) :
    Transcript Json := do
  return .object [("resource", ← resourceTranscript format o.1), (flag, o.2)]

def ReceiveEnd.text : ReceiveEnd → String
  | .max => "max"
  | .pending => "pending"
  | .closed => "closed"

def Permission.toJson (p : Permission) : Json :=
  .object [("text", p.text), ("resource", p.collection.text), ("verb", p.verb.text),
    ("name", .orNull (p.name.map .string)), ("global", p.isGlobal)]

def Role.toJson (r : Role) : Json :=
  .object [("name", r.name), ("permissions", .strings r.permissions.texts),
    ("created_at", Time.format.toJson r.createdAt)]

def Decision.toJson : Decision → Json
  | .allow => "allow"
  | .deny reason => .object [("deny", reason)]

/-- The verbs of a list. -/
def verbsJson (l : List Verb) : Json := .strings (l.map Verb.text)

/-- A membership with the name of its resource. -/
def Membership.toJson (s : Membership) : Json :=
  .object [("name", s.objectName), ("membership", Membership.format.toJson s)]

def recordTranscript (r : PartnerRecord) : Transcript Json := do
  let shown := { r with marker := ← Labels.marker r.marker }
  return (PartnerRecord.format.toJson shown).add "inflight" r.isInflight

def entityTranscript (e : BillingEntity) : Transcript Json := do
  return .object [("organization", e.organization), ("link", RecordLink.format.toJson e.link),
    ("company", ← recordTranscript e.company), ("invoice", ← recordTranscript e.invoice)]

end Tenancy
