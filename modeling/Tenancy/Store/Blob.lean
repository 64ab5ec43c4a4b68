import Tenancy.Store.Codec
import Tenancy.Store.Config
import Tenancy.Store.Contract
import Tenancy.Store.Name

/-!
# Stores over containers

A resource is one entry of a container: its payload, written by a codec, is the bytes of the entry,
and all metadata are derived from the entry when it is read, so they cannot drift from what is
stored.

An update reads the entry, applies the mutation and replaces the bytes, with no condition on the
version: of two updates at once the later write wins.  A deletion reads the entry first, so an entry
that cannot be read is never removed.
-/

namespace Tenancy

structure BlobStore (m : Type → Type) (α : Type) where
  collection : Collection
  container : Container m
  codec : Codec α
  config : StoreConfig
  /-- The verbs that the store exposes. -/
  capabilities : Capabilities

namespace BlobStore

variable {m : Type → Type} {α : Type}

/-- The payload of an entry. -/
def payloadOf (codec : Codec α) (collection : Collection) (entry : Entry) : Except StoreError α :=
  (codec.decode entry.bytes).mapError fun e =>
    .internal ("decoding " ++ collection.text ++ " \"" ++ entry.name ++ "\": " ++ e.message)

/-- The metadata that an entry stands for. -/
def metadataOf (entry : Entry) : ObjectMeta where
  name := entry.name
  uid := some (.ofEntry entry.uid)
  creationTime := some entry.creationTime
  version := some entry.version

/-- The resource that an entry stands for. -/
def read (s : BlobStore m α) (entry : Entry) : Except StoreError (Resource α) :=
  (payloadOf s.codec s.collection entry).map fun payload => ⟨metadataOf entry, payload⟩

/-- The bytes of a payload. -/
def write (s : BlobStore m α) (payload : α) : Except StoreError Bytes :=
  (s.codec.encode payload).mapError fun e =>
    .internal ("encoding " ++ s.collection.text ++ ": " ++ e.message)

/-- The name that a new resource is stored under. -/
def assignedName (call : Call) (metadata : ObjectMeta) : String :=
  match metadata.generateName with
  | some stem => if metadata.name.isEmpty then generateName stem call.draw else metadata.name
  | none => metadata.name

/-- Fails unless the name is valid. -/
def checkedName (name : String) : Except StoreError Unit :=
  (checkName name).mapError fun fault => .validationFailed fault.message

variable [Monad m]

/-- A container operation with its error as an error of the store. -/
def access {β : Type} (s : BlobStore m α) (x : ExceptT ContainerError m β) :
    ExceptT StoreError m β :=
  x.adapt (ContainerError.toStoreError s.collection)

/-- The watch of a feed takes events with their entries read; an entry that cannot be read becomes
an error event.  A feed that has fallen behind ends with an error event. -/
def taken (s : BlobStore m α) : Receipt Entry → Taken (Resource α)
  | .event e =>
    match e.mapM s.read with
    | .ok e => .event e
    | .error err => .event (.error err.toStatus)
  | .lagged missed =>
    .last (.error (.expired ("watch of " ++ s.collection.text ++ " fell behind by " ++
      toString missed ++ " events")))
  | .pending => .pending
  | .closed => .ended

def source (s : BlobStore m α) (feed : Subscription m Entry) : Source m (Resource α) where
  take := s.taken <$> feed.receive
  cancel := feed.cancel

def get (s : BlobStore m α) (name : String) : ExceptT StoreError m (Resource α) := do
  s.capabilities.require .get
  let entry ← s.access (s.container.get name)
  s.read entry

def list (s : BlobStore m α) (options : ListOptions) :
    ExceptT StoreError m (Page (Resource α)) := do
  s.capabilities.require .list
  let limit := s.config.pageSize options.limit
  let page ← s.access (s.container.list { options with limit := some limit })
  let items ← (page.items.mapM s.read : Except StoreError (List (Resource α)))
  return { page with items := items }

def watch (s : BlobStore m α) (options : ListOptions) :
    ExceptT StoreError m (Watch m (Resource α)) := do
  s.capabilities.require .watch
  let feed ← s.access (s.container.watch options)
  return .relayed (s.source feed) (.ofCapacity s.config.watchBufferSize)

/-- Stores a payload under a new name. -/
def createEntry (s : BlobStore m α) (birth : Birth) (name : String) (payload : α) :
    ExceptT StoreError m (Resource α) := do
  let bytes ← s.write payload
  let entry ← s.access (s.container.create birth name bytes)
  s.read entry

def create (s : BlobStore m α) (call : Call) (resource : Resource α) :
    ExceptT StoreError m (Resource α) := do
  s.capabilities.require .create
  let name := assignedName call resource.metadata
  checkedName name
  s.createEntry call.birth name resource.payload

/-- The resource of a name, if there is one. -/
def find (s : BlobStore m α) (name : String) : ExceptT StoreError m (Option (Resource α)) := do
  match ← ExceptT.lift (s.container.get name).run with
  | .ok entry => return some (← s.read entry)
  | .error (.notFound _) => return none
  | .error e => throw (e.toStoreError s.collection)

/-- Replaces the payload of an existing resource by what the mutation makes of it. -/
def replace (s : BlobStore m α) (name : String) (old : α) (mutate : Mutation m α) :
    ExceptT StoreError m (Resource α) := do
  let payload ← mutate (some old)
  let bytes ← s.write payload
  let entry ← s.access (s.container.patch name bytes)
  s.read entry

def update (s : BlobStore m α) (call : Call) (name : String) (mutate : Mutation m α)
    (allowCreate : Bool) : ExceptT StoreError m (Outcome α) := do
  s.capabilities.require .update
  match ← s.find name with
  | some old => return (← s.replace name old.payload mutate, false)
  | none =>
    if !allowCreate then throw (.notFound s.collection name)
    checkedName name
    let payload ← mutate none
    return (← s.createEntry call.birth name payload, true)

def delete (s : BlobStore m α) (name : String) : ExceptT StoreError m (Outcome α) := do
  s.capabilities.require .delete
  let entry ← s.access (s.container.get name)
  let lastKnown ← s.read entry
  let _ ← s.access (s.container.delete name)
  return (lastKnown, true)

def store (s : BlobStore m α) : Store m α where
  collection := s.collection
  capabilities := s.capabilities
  get _ := s.get
  list _ := s.list
  watch _ := s.watch
  create := s.create
  update := s.update
  delete _ := s.delete

def describe (s : BlobStore m α) : String :=
  "BlobStore \x7b resource: " ++ s.collection.kind ++ ", capabilities: " ++
    s.capabilities.describe ++ ", content_type: " ++ quoted s.codec.contentType ++ " \x7d"

end BlobStore

end Tenancy
