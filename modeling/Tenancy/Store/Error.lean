import Tenancy.Access.Collection
import Tenancy.Access.Verb
import Tenancy.Feed.Event

/-!
# Store errors

A store operation fails for one cause or, where compensation fails too, for several, which are kept
in the order in which they happened.  `StoreError.combine` puts errors together: the causes of the
whole are the causes of the parts, one after the other.  An error of several causes has at least
two.
-/

namespace Tenancy

/-- One reason for which a store operation fails. -/
inductive Cause where
  | notFound (collection : Collection) (name : String)
  | alreadyExists (collection : Collection) (name : String)
  | forbidden (reason : String)
  | conflict (reason : String)
  | methodNotSupported (verb : Verb)
  | internal (reason : String)
  | validationFailed (reason : String)
  deriving DecidableEq

namespace Cause

def message : Cause → String
  | .notFound collection name => collection.text ++ " \"" ++ name ++ "\" not found"
  | .alreadyExists collection name => collection.text ++ " \"" ++ name ++ "\" already exists"
  | .forbidden reason => "Forbidden: " ++ reason
  | .conflict reason => "Conflict: " ++ reason
  | .methodNotSupported verb => "Method not supported: " ++ verb.text
  | .internal reason => "Internal error: " ++ reason
  | .validationFailed reason => "Validation failed: " ++ reason

def status : Cause → Nat
  | .notFound _ _ => 404
  | .alreadyExists _ _ => 409
  | .forbidden _ => 403
  | .conflict _ => 409
  | .methodNotSupported _ => 405
  | .internal _ => 500
  | .validationFailed _ => 422

def code : Cause → String
  | .notFound _ _ => "NOT_FOUND"
  | .alreadyExists _ _ => "ALREADY_EXISTS"
  | .forbidden _ => "FORBIDDEN"
  | .conflict _ => "CONFLICT"
  | .methodNotSupported _ => "METHOD_NOT_SUPPORTED"
  | .internal _ => "INTERNAL_ERROR"
  | .validationFailed _ => "VALIDATION_FAILED"

end Cause

inductive StoreError where
  | one (cause : Cause)
  | many (causes : List Cause) (several : 2 ≤ causes.length)
  deriving DecidableEq

namespace StoreError

def causes : StoreError → List Cause
  | .one cause => [cause]
  | .many causes _ => causes

/-- The error of the given causes, if there are any. -/
def ofCauses : List Cause → Option StoreError
  | [] => none
  | [cause] => some (.one cause)
  | first :: second :: rest => some (.many (first :: second :: rest) (by simp))

/-- The error of all causes of the given errors, if there are any. -/
def combine (errors : List (Option StoreError)) : Option StoreError :=
  ofCauses (errors.flatMap fun e => (e.map causes).getD [])

def message : StoreError → String
  | .one cause => cause.message
  | .many causes _ => "[" ++ ", ".intercalate (causes.map Cause.message) ++ "]"

/-- The status of the first cause. -/
def status : StoreError → Nat
  | .one cause => cause.status
  | .many causes _ => (causes.head?.map Cause.status).getD 500

def code : StoreError → String
  | .one cause => cause.code
  | .many _ _ => "MULTIPLE_ERRORS"

def isNotFound : StoreError → Bool
  | .one (.notFound _ _) => true
  | _ => false

/-- The fault is not the caller's. -/
def isServerError (e : StoreError) : Bool := 500 ≤ e.status

/-- The error as a watch reports it. -/
def toStatus (e : StoreError) : Status := ⟨e.status, e.code, e.message⟩

def notFound (collection : Collection) (name : String) : StoreError :=
  .one (.notFound collection name)

def alreadyExists (collection : Collection) (name : String) : StoreError :=
  .one (.alreadyExists collection name)

def forbidden (reason : String) : StoreError := .one (.forbidden reason)

def conflict (reason : String) : StoreError := .one (.conflict reason)

def methodNotSupported (verb : Verb) : StoreError := .one (.methodNotSupported verb)

def internal (reason : String) : StoreError := .one (.internal reason)

def validationFailed (reason : String) : StoreError := .one (.validationFailed reason)

end StoreError

end Tenancy
