import Deployments.Director
import Deployments.Log

/-!
The selection of deployments: all that a director lists, or those of given names in their order.
-/

namespace Deployments

inductive DirectorCall where
  | list
  | find (name : Text)
  deriving DecidableEq, Repr, Inhabited

/-- A selection, with what was done to make it. -/
structure Selected (ρ : Facet → Type) where
  calls : List DirectorCall
  lines : List LogLine
  outcome : Except Failure (List (Handle ρ))

namespace Selection

variable {ρ : Facet → Type}

/-- The name of the logger, below another one. -/
def logger : Text := "DeploymentsFilter"

/-- The names that a value gives: none if it counts as absent, else its items. -/
def ofValue (v : Value) : Except Fault (List Value) :=
  if v.isTruthy then
    match v.items? with
    | some items => .ok items
    | none => .error (.notIterable v.typeName)
  else .ok []

def failureOf (name : Option Text) (e : Raised) : Failure :=
  .ofRaised (.listing name) e

/-- The texts among the names, which all have to be; `index` is the place of the first. -/
def texts (index : Nat) : List Value → Except Fault (List Text)
  | [] => .ok []
  | .text s :: rest => (texts (index + 1) rest).map (s :: ·)
  | v :: _ => .error (.itemNotText index v.typeName)

/-- The handles of names, found one after another, and the calls that were made. -/
def findAll (director : Director ρ) :
    List Text → List DirectorCall × Except Failure (List (Handle ρ))
  | [] => ([], .ok [])
  | name :: rest =>
    match director.find name with
    | .error e => ([.find name], .error (failureOf (some name) e))
    | .ok handle =>
      let (calls, outcome) := findAll director rest
      (.find name :: calls, outcome.map (handle :: ·))

/-- The selection of names; no name selects all. -/
def select (parent : Text) (names : List Value) (director : Director ρ) : Selected ρ :=
  let line (message : Text) : LogLine := ⟨childLogger parent logger, .debug, message⟩
  if names.isEmpty then
    { calls := [.list]
      lines := [line "Reading deployments..."]
      outcome := director.list.mapError (failureOf none) }
  else match texts 0 names with
    | .error f => ⟨[], [], .error (.fault f)⟩
    | .ok names =>
      let (calls, outcome) := findAll director names
      let message :=
        "Filtering deployments by " ++ Failure.marked (Text.intercalate ", " names) ++ "..."
      ⟨calls, [line message], outcome⟩

end Selection

end Deployments
