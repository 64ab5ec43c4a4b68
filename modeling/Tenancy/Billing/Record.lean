import Tenancy.Time.Basic

/-!
# Partner records

A billing account is represented by two records: a company, and an invoice address that belongs to
it.  Both carry a marker while they are being created; a record whose marker is cleared is
confirmed.
-/

namespace Tenancy

inductive RecordKind where
  | company
  | invoice
  deriving DecidableEq

namespace RecordKind

def all : List RecordKind := [.company, .invoice]

def text : RecordKind → String
  | .company => "company"
  | .invoice => "invoice"

end RecordKind

/-- The marker of a confirmed record. -/
def clearedMarker : String := ""

def isCleared (marker : String) : Bool := marker.isEmpty

/-- The number of characters of a marker that is drawn. -/
def markerLength : Nat := 24

structure PartnerRecord where
  id : Int
  kind : RecordKind
  name : String
  email : Option String
  /-- The organization for which the record stands. -/
  reference : String
  /-- The company to which an invoice address belongs. -/
  parentId : Option Int
  marker : String
  createdAt : Time
  deriving DecidableEq

/-- The creation of the record has not been confirmed. -/
def PartnerRecord.isInflight (r : PartnerRecord) : Bool := !isCleared r.marker

/-- A record that is to be created. -/
structure NewRecord where
  kind : RecordKind
  name : String
  email : Option String
  reference : String
  parentId : Option Int
  marker : String
  deriving DecidableEq

namespace NewRecord

def company (name reference : String) : NewRecord :=
  ⟨.company, name, none, reference, none, clearedMarker⟩

def invoice (name email reference : String) (company : Int) : NewRecord :=
  ⟨.invoice, name, some email, reference, some company, clearedMarker⟩

def withMarker (r : NewRecord) (marker : String) : NewRecord := { r with marker := marker }

/-- The record as it is stored. -/
def stored (r : NewRecord) (id : Int) (createdAt : Time) : PartnerRecord :=
  ⟨id, r.kind, r.name, r.email, r.reference, r.parentId, r.marker, createdAt⟩

end NewRecord

/-- What an update sets; a field without a value is left as it is. -/
structure RecordPatch where
  name : Option String := none
  email : Option String := none
  marker : Option String := none
  deriving DecidableEq

namespace RecordPatch

/-- The patch that confirms a record. -/
def clearMarker : RecordPatch := { marker := some clearedMarker }

def apply (p : RecordPatch) (r : PartnerRecord) : PartnerRecord :=
  { r with
    name := p.name.getD r.name
    email := p.email.orElse fun _ => r.email
    marker := p.marker.getD r.marker }

end RecordPatch

inductive MarkerFilter where
  | any
  | set
  | cleared
  | equals (marker : String)
  deriving DecidableEq

def MarkerFilter.accepts : MarkerFilter → String → Bool
  | .any, _ => true
  | .set, marker => !isCleared marker
  | .cleared, marker => isCleared marker
  | .equals expected, marker => marker = expected

/-- What a search is for; all that is given must hold. -/
structure SearchFilter where
  ids : Option (List Int) := none
  kind : Option RecordKind := none
  parentId : Option Int := none
  marker : MarkerFilter := .any
  deriving DecidableEq

namespace SearchFilter

/-- Records whose creation has not been confirmed. -/
def inflight : SearchFilter := { marker := .set }

def confirmed : SearchFilter := { marker := .cleared }

/-- Records with exactly this marker. -/
def tagged (marker : String) : SearchFilter := { marker := .equals marker }

def accepts (f : SearchFilter) (r : PartnerRecord) : Bool :=
  f.ids.all (·.contains r.id) && f.kind.all (r.kind = ·) &&
    f.parentId.all (r.parentId = some ·) && f.marker.accepts r.marker

end SearchFilter

end Tenancy
