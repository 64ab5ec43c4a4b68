import Tenancy.Store.Error

/-!
# Capabilities

The set of verbs that a store supports.  The wildcard is no operation, so it is in no set.
-/

namespace Tenancy

structure Capabilities where
  get : Bool
  list : Bool
  watch : Bool
  create : Bool
  update : Bool
  delete : Bool
  deriving DecidableEq

namespace Capabilities

def none : Capabilities := ⟨false, false, false, false, false, false⟩

def readOnly : Capabilities := ⟨true, true, true, false, false, false⟩

def all : Capabilities := ⟨true, true, true, true, true, true⟩

def supports (c : Capabilities) : Verb → Bool
  | .get => c.get
  | .list => c.list
  | .watch => c.watch
  | .create => c.create
  | .update => c.update
  | .delete => c.delete
  | .all => false

/-- The set with the verb put in or left out. -/
def set (c : Capabilities) (verb : Verb) (isIn : Bool) : Capabilities :=
  match verb with
  | .get => { c with get := isIn }
  | .list => { c with list := isIn }
  | .watch => { c with watch := isIn }
  | .create => { c with create := isIn }
  | .update => { c with update := isIn }
  | .delete => { c with delete := isIn }
  | .all => c

def insert (c : Capabilities) (verb : Verb) : Capabilities := c.set verb true

def erase (c : Capabilities) (verb : Verb) : Capabilities := c.set verb false

def ofList (verbs : List Verb) : Capabilities := verbs.foldl insert none

def union (c d : Capabilities) : Capabilities :=
  ⟨c.get || d.get, c.list || d.list, c.watch || d.watch, c.create || d.create,
    c.update || d.update, c.delete || d.delete⟩

def inter (c d : Capabilities) : Capabilities :=
  ⟨c.get && d.get, c.list && d.list, c.watch && d.watch, c.create && d.create,
    c.update && d.update, c.delete && d.delete⟩

/-- The supported verbs in canonical order. -/
def verbs (c : Capabilities) : List Verb := Verb.operations.filter c.supports

/-- Fails unless the verb is supported. -/
def require (c : Capabilities) (verb : Verb) : Except StoreError Unit :=
  if c.supports verb then .ok () else .error (.methodNotSupported verb)

/-- The form in descriptions of stores. -/
def describe (c : Capabilities) : String :=
  "\x7b" ++ ", ".intercalate (c.verbs.map Verb.label) ++ "\x7d"

end Capabilities

end Tenancy
