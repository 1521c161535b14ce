import Deployments.Facet
import Deployments.Raised

/-!
What ends a collection without a result: an error of a director's call, with what was being read
when it came, or a fault.
-/

namespace Deployments

inductive Failure where
  /-- A call raised an error that is not handled on the way. -/
  | raised (e : Raised)
  | facet (deployment : Text) (facet : Facet) (cause : Raised)
  /-- The call that lists the deployments, or finds the one of a name, raised an error. -/
  | listing (name : Option Text) (cause : Raised)
  | fault (f : Fault)
  /-- The result of a reading was asked for before it ended. -/
  | unfinished
  deriving Repr, Inhabited

namespace Failure

def isOrdinary : Failure → Bool
  | raised e => e.isOrdinary
  | _ => true

/-- The failure says what could not be read. -/
def isCollectionError : Failure → Bool
  | facet .. | listing .. => true
  | _ => false

/-- The failure when a call raises an error. One that callers handle is wrapped with its text; if
it carries a value that has no text, that is the failure. -/
def ofRaised (wrap : Raised → Failure) (e : Raised) : Failure :=
  if e.isOrdinary then
    match e.text with
    | .ok _ => wrap e
    | .error f => fault f
  else raised e

def marked (name : Text) : Text := "\x60" ++ name ++ "\x60"

def message : Failure → Text
  | raised e => e.message
  | facet deployment read cause =>
    "Error while reading " ++ read.label ++ " for deployment " ++ marked deployment ++ ": " ++
      cause.message
  | listing none cause => "Error reading deployments: " ++ cause.message
  | listing (some name) cause =>
    "Error reading deployment " ++ marked name ++ ": " ++ cause.message
  | fault f => f.message
  | unfinished => "Result is not set."

end Failure

end Deployments
