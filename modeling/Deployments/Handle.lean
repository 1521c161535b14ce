import Deployments.Failure
import Deployments.Snapshot

/-!
Handles of deployments. A handle answers one call for each facet, with records or an error; a
mapping turns records into entries and may leave some out. Fetching a deployment reads its facets
in order and stops at the first that fails.
-/

namespace Deployments

/-- How records of each facet become entries: a record may have none, or be at fault. -/
abbrev Mapping (ρ η : Facet → Type) := (facet : Facet) → ρ facet → Except Fault (Option (η facet))

structure Handle (ρ : Facet → Type) where
  name : Text
  answer : (facet : Facet) → Except Raised (List (ρ facet))

/-- What is done to a handle: a facet is announced, or called for. -/
inductive Deed where
  | line (facet : Facet)
  | call (facet : Facet)
  deriving DecidableEq, Repr, Inhabited

namespace Deed

def calls (deeds : List Deed) : List Facet :=
  deeds.filterMap fun
    | call facet => some facet
    | line _ => none

def lines (deeds : List Deed) : List Facet :=
  deeds.filterMap fun
    | line facet => some facet
    | call _ => none

end Deed

/-- The entries of records, in order. -/
def entriesOf {α β : Type} (map : α → Except Fault (Option β)) : List α → Except Fault (List β)
  | [] => .ok []
  | r :: rs => do
    let entry ← map r
    let entries ← entriesOf map rs
    .ok (entry.toList ++ entries)

def readingLine (name : Text) (facet : Facet) : Text :=
  "Reading " ++ facet.label ++ " for deployment " ++ Failure.marked name

namespace Handle

variable {ρ η : Facet → Type}

def failureOf (h : Handle ρ) (facet : Facet) (e : Raised) : Failure :=
  .ofRaised (.facet h.name facet) e

def read (map : Mapping ρ η) (h : Handle ρ) (facet : Facet) : Except Failure (List (η facet)) :=
  match h.answer facet with
  | .error e => .error (h.failureOf facet e)
  | .ok records => match entriesOf (map facet) records with
    | .ok entries => .ok entries
    | .error f => .error (.fault f)

/-- What is done to read facets into a snapshot, and what comes of it. -/
def readAll (map : Mapping ρ η) (h : Handle ρ) :
    List Facet → Snapshot η → List Deed × Except Failure (Snapshot η)
  | [], s => ([], .ok s)
  | facet :: rest, s =>
    match h.read map facet with
    | .error e => ([.line facet, .call facet], .error e)
    | .ok entries =>
      let (deeds, outcome) := readAll map h rest (s.set facet entries)
      (.line facet :: .call facet :: deeds, outcome)

/-- What is done to fetch a deployment, and what comes of it. -/
def run (map : Mapping ρ η) (h : Handle ρ) : List Deed × Except Failure (Snapshot η) :=
  h.readAll map Facet.all (Snapshot.blank h.name)

/-- The snapshot of a deployment, or the failure of the first facet that fails. -/
def fetch (map : Mapping ρ η) (h : Handle ρ) : Except Failure (Snapshot η) := (h.run map).2

def calls (map : Mapping ρ η) (h : Handle ρ) : List Facet := Deed.calls (h.run map).1

end Handle

end Deployments
