import Tenancy.Access.Grant
import Tenancy.Billing.Scavenger
import Tenancy.Json.Query
import Tenancy.Store.Codec
import Tenancy.Store.Container

/-!
# Errors on the wire

Errors are reported as objects with a code, a message and, where there is one, a status.  An error
with several causes lists them.
-/

namespace Tenancy

/-- An error with a code for callers and a status. -/
def errorObject (code : String) (status : Nat) (message : String) : Json :=
  .object [("error", code), ("status", status), ("message", message)]

/-- An error with a code only. -/
def plainErrorObject (code message : String) : Json :=
  .object [("error", code), ("message", message)]

def Cause.toJson (c : Cause) : Json := errorObject c.code c.status c.message

def StoreError.toJson (e : StoreError) : Json :=
  let plain := errorObject e.code e.status e.message
  match e with
  | .one _ => plain
  | .many causes _ =>
    ((plain.add "count" causes.length).add "empty" causes.isEmpty).add "causes"
      (.array (causes.map Cause.toJson))

def ContainerError.kind : ContainerError → String
  | .notFound _ => "NotFound"
  | .alreadyExists _ => "AlreadyExists"
  | .invalid _ => "Invalid"
  | .unavailable _ => "Unavailable"

def ContainerError.toJson (e : ContainerError) : Json := plainErrorObject e.kind e.message

def GrantError.kind : GrantError → String
  | .notFound _ _ => "NotFound"
  | .alreadyExists _ _ => "AlreadyExists"
  | .unavailable _ => "Unavailable"

def GrantError.toJson (e : GrantError) : Json :=
  (plainErrorObject e.kind e.message).add "not_found" e.isNotFound

def BillingError.toJson (e : BillingError) : Json := errorObject e.code e.status e.message

def ConfigError.toJson (e : ConfigError) : Json := plainErrorObject "InvalidValue" e.message

def CodecError.kind : CodecError → String
  | .encode _ => "Encode"
  | .decode _ => "Decode"

def CodecError.toJson (e : CodecError) : Json := plainErrorObject e.kind e.message

/-- A result as its value or its error. -/
def resultJson {ε α : Type} (onError : ε → Json) (onOk : α → Json) : Except ε α → Json
  | .ok x => onOk x
  | .error e => onError e

/-- What is answered where there is no value to give. -/
def okJson : Json := "ok"

/-- A result without a value. -/
def doneJson {ε : Type} (onError : ε → Json) : Except ε Unit → Json :=
  resultJson onError fun _ => okJson

end Tenancy
