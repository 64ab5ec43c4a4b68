import Tenancy.Access.Request
import Tenancy.Cell

/-!
# Scripted authorizers

An authorizer that decides by a list of rules: the first rule that is about a request decides it,
and a request that no rule is about is allowed.  `Authorizer.recorded` keeps a record of all
requests.
-/

namespace Tenancy

structure ScriptRule where
  /-- The verb that the rule is about; every verb if there is none. -/
  verb : Option Verb
  /-- What the names begin with that the rule is about.  If it is given, the rule is not about
  requests without a name. -/
  stem : Option String
  verdict : Except AuthorizerError Decision

def ScriptRule.isAbout (rule : ScriptRule) (q : AccessRequest) : Bool :=
  rule.verb.all (· = q.verb) &&
    match rule.stem, q.coordinates.name with
    | none, _ => true
    | some _, none => false
    | some stem, some name => stem.toList.isPrefixOf name.toList

namespace Authorizer

variable {m : Type → Type} [Monad m]

def script (rules : List ScriptRule) : Authorizer m := fun q =>
  match rules.find? (·.isAbout q) with
  | some rule => ofExcept rule.verdict
  | none => pure .allow

/-- The authorizer `inner` with a record of what it was asked. -/
def recorded (inner : Authorizer m) (record : Cell m (List AccessRequest)) :
    Authorizer m := fun q => do
  ExceptT.lift (record.access (modify (· ++ [q])))
  inner q

end Authorizer

/-- The form of a request in a record. -/
def AccessRequest.text (q : AccessRequest) : String :=
  q.actor.name ++ " " ++ q.verb.text ++ " " ++ q.coordinates.text

end Tenancy
