import Tenancy.Store.Config
import Tenancy.Store.Resource
import Tenancy.Wire.Scalar

/-!
# Wire forms of resources

Metadata, resources, list options, pages and the configuration of stores as JSON.
-/

namespace Tenancy

open Json

def ObjectMeta.format : Format ObjectMeta :=
  (Format.record "ObjectMeta"
    (.cons (.required "name" .text)
      (.cons (.omittable "generateName" .text)
        (.cons (.omittable "uid" Uid.format)
          (.cons (.omittable "creationTimestamp" Time.format)
            (.cons (.omittable "version" .text) .nil)))))).imap
    (fun (name, generateName, uid, creationTime, version, ()) =>
      ⟨name, generateName, uid, creationTime, version⟩)
    (fun o => (o.name, o.generateName, o.uid, o.creationTime, o.version, ()))

def Resource.format {α : Type} (payload : Format α) : Format (Resource α) :=
  (Format.record "Resource"
    (.cons (.required "metadata" ObjectMeta.format)
      (.cons (.required "payload" payload) .nil))).imap
    (fun (metadata, payload, ()) => ⟨metadata, payload⟩) (fun r => (r.metadata, r.payload, ()))

def ListOptions.format : Format ListOptions :=
  (Format.record "ListOptions"
    (.cons (.omittable "limit" .size)
      (.cons (.omittable "continueToken" .text)
        (.cons (.defaulted "sendInitialEvents" .bool false) .nil)))).imap
    (fun (limit, continueToken, sendInitialEvents, ()) => ⟨limit, continueToken, sendInitialEvents⟩)
    (fun o => (o.limit, o.continueToken, o.sendInitialEvents, ()))

/-- Pages of resources whose payloads have the given format. -/
def Page.format {α : Type} (payload : Format α) : Format (Page (Resource α)) :=
  (Format.record "ResourceList"
    (.cons (.required "items" (Resource.format payload).list)
      (.cons (.omittable "continueToken" .text) (.cons (.required "version" .text) .nil)))).imap
    (fun (items, continueToken, version, ()) => ⟨items, continueToken, version⟩)
    (fun p => (p.items, p.continueToken, p.version, ()))

def StoreConfig.format : Format StoreConfig :=
  (Format.record "StoreConfig"
    (.cons (.required "watch_buffer_size" .size)
      (.cons (.required "max_page_size" .size)
        (.cons (.required "change_feed_capacity" .size) .nil)))).imap
    (fun (watchBufferSize, maxPageSize, changeFeedCapacity, ()) =>
      ⟨watchBufferSize, maxPageSize, changeFeedCapacity⟩)
    (fun c => (c.watchBufferSize, c.maxPageSize, c.changeFeedCapacity, ()))

end Tenancy
