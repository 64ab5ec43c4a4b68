import Tenancy.Base64

/-!
# Page tokens

The token of a page says after which name the next page begins: the UTF-8 form of the name in base
64.
-/

namespace Tenancy.PageToken

/-- Why a text is no page token. -/
inductive Fault where
  | symbols (fault : Base64.Fault)
  | notUtf8
  deriving DecidableEq

def Fault.message : Fault → String
  | .symbols fault => "malformed continue token: " ++ fault.message
  | .notUtf8 => "malformed continue token: not utf-8"

/-- The token of the page after `name`. -/
def encode (name : String) : String :=
  String.ofList ((Base64.encode (utf8 name)).map fun b => Char.ofNat b.toNat)

/-- The name after which the page of a token begins. -/
def decode (token : String) : Except Fault String :=
  match Base64.decode (utf8 token) with
  | .error fault => .error (.symbols fault)
  | .ok bytes =>
    match ofUtf8? bytes with
    | some name => .ok name
    | none => .error .notUtf8

end Tenancy.PageToken
