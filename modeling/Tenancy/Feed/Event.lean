/-!
# Watch events

What a watch delivers.  Object events carry an object; errors and bookmarks are out of band and
carry none.
-/

namespace Tenancy

/-- The description of a failure in an error event. -/
structure Status where
  code : Nat
  reason : String
  message : String
  deriving DecidableEq

namespace Status

def text (s : Status) : String := toString s.code ++ " " ++ s.reason ++ ": " ++ s.message

/-- The watch fell too far behind and has to be started again. -/
def expired (message : String) : Status := ⟨410, "EXPIRED", message⟩

end Status

inductive EventType where
  | added
  | modified
  | deleted
  | error
  | bookmark
  deriving DecidableEq

namespace EventType

def all : List EventType := [.added, .modified, .deleted, .error, .bookmark]

def text : EventType → String
  | .added => "ADDED"
  | .modified => "MODIFIED"
  | .deleted => "DELETED"
  | .error => "ERROR"
  | .bookmark => "BOOKMARK"

end EventType

inductive Event (α : Type) where
  | added (object : α)
  | modified (object : α)
  /-- The object is gone; the event carries its last state. -/
  | deleted (object : α)
  | error (status : Status)
  /-- The collection has come as far as the version. -/
  | bookmark (version : String)
  deriving DecidableEq

namespace Event

variable {α β : Type}

def type : Event α → EventType
  | .added _ => .added
  | .modified _ => .modified
  | .deleted _ => .deleted
  | .error _ => .error
  | .bookmark _ => .bookmark

def object? : Event α → Option α
  | .added x | .modified x | .deleted x => some x
  | .error _ | .bookmark _ => none

def isOutOfBand (e : Event α) : Bool := e.object?.isNone

/-- The event with its object converted, if it has one; a conversion may fail. -/
def mapM {m : Type → Type} [Monad m] (f : α → m β) : Event α → m (Event β)
  | .added x => .added <$> f x
  | .modified x => .modified <$> f x
  | .deleted x => .deleted <$> f x
  | .error status => pure (.error status)
  | .bookmark version => pure (.bookmark version)

end Event

end Tenancy
