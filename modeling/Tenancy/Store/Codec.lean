import Tenancy.Json.Format

/-!
# Payload codecs

A store keeps payloads as bytes; a codec writes and reads them.
-/

namespace Tenancy

inductive CodecError where
  | encode (reason : String)
  | decode (reason : String)
  deriving DecidableEq

def CodecError.message : CodecError → String
  | .encode reason => "Encode error: " ++ reason
  | .decode reason => "Decode error: " ++ reason

structure Codec (α : Type) where
  encode : α → Except CodecError Bytes
  decode : Bytes → Except CodecError α
  /-- The media type of the bytes. -/
  contentType : String

namespace Codec

/-- The codec that keeps payloads as JSON. -/
def json {α : Type} (format : Json.Format α) : Codec α where
  encode x := .ok (format.encode x)
  decode bytes := (format.decode bytes).mapError fun fault => .decode fault.message
  contentType := "application/json"

/-- The name of this codec in descriptions. -/
def jsonLabel : String := "JsonCodec"

end Codec

end Tenancy
