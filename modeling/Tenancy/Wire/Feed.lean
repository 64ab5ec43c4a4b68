import Tenancy.Feed.Event
import Tenancy.Wire.Scalar

/-!
# Wire forms of watch events

An event is an object with its type and, beside it, its content.
-/

namespace Tenancy

open Json

def EventType.format : Format EventType := .choice EventType.all EventType.text

def Status.format : Format Status :=
  (Format.record "Status"
    (.cons (.required "code" .short)
      (.cons (.required "reason" .text) (.cons (.required "message" .text) .nil)))).imap
    (fun (code, reason, message, ()) => ⟨code, reason, message⟩)
    (fun s => (s.code, s.reason, s.message, ()))

/-- The content of a bookmark. -/
def bookmarkFormat : Format String :=
  (Format.objectOnly "struct variant WatchEvent::Bookmark"
    (.cons (.required "version" .text) .nil)).imap (fun (version, ()) => version)
    (fun version => (version, ()))

/-- Events whose objects have the given format. -/
def Event.format {α : Type} (object : Format α) : Format (Event α) :=
  .adjacent "WatchEvent" "type" "object"
    [.carrying "ADDED" object .added, .carrying "MODIFIED" object .modified,
      .carrying "DELETED" object .deleted, .carrying "ERROR" Status.format .error,
      .carrying "BOOKMARK" bookmarkFormat .bookmark]
    fun e =>
      let content := match e with
        | .added x | .modified x | .deleted x => object.toJson x
        | .error status => Status.format.toJson status
        | .bookmark version => bookmarkFormat.toJson version
      .object [("type", .string e.type.text), ("object", content)]

end Tenancy
