import Deployments.Collection.Step

/-!
Runs of a collection. A run is a row of steps in any order; `schedule` is one that goes on as long
as there are steps: workers go first, each as far as it can, and the loop follows.
-/

namespace Deployments.Collection

variable {ρ η : Facet → Type}

/-- The state after a row of steps, if each of them can be taken. -/
def runFrom? (c : Collection ρ η) (s : State ρ η) : List Action → Option (State ρ η)
  | [] => some s
  | action :: rest => (c.step? s action).bind fun s => runFrom? c s rest

/-- A state is reached by some row of steps. -/
def Reaches (c : Collection ρ η) (s t : State ρ η) : Prop :=
  ∃ actions, c.runFrom? s actions = some t

def IsFinal (c : Collection ρ η) (s : State ρ η) : Prop := ∀ action, c.step? s action = none

/-- All steps that there may be. -/
def actions (c : Collection ρ η) : List Action :=
  let workers := List.range c.handles.length
  workers.map .worker ++ workers.map .deliver ++ [.wake, .finish]

/-- The first step that can be taken. -/
def advance (c : Collection ρ η) (s : State ρ η) : Option (State ρ η) :=
  c.actions.findSome? (c.step? s)

/-- No run has more steps: each facet takes a worker three, its beginning one and its end four at
most, the last of which is taken by the loop; and the loop takes two for itself. -/
def budget (c : Collection ρ η) : Nat := 17 * c.handles.length + 2

/-- Steps one after another, the first that can be taken each time. -/
def schedule (c : Collection ρ η) : Nat → State ρ η → State ρ η
  | 0, s => s
  | fuel + 1, s =>
    match c.advance s with
    | some t => schedule c fuel t
    | none => s

/-- What is left of a collection when no more steps can be taken. -/
structure Report (η : Facet → Type) where
  /-- The outcome; nothing if a call waits for ever. -/
  outcome : Option (Except Failure (List (Snapshot η)))
  deeds : List (List Deed)
  lines : List LogLine

def Report.calls (report : Report η) : List (List Facet) := report.deeds.map Deed.calls

/-- The name of the logger, below another one. -/
def logger : Text := "DeploymentsCollector"

/-- What is left in a state; the log goes to a logger below `parent`. -/
def State.report (parent : Text) (s : State ρ η) : Report η :=
  let line (entry : Level × Text) : LogLine := ⟨childLogger parent logger, entry.1, entry.2⟩
  ⟨s.outcome?, s.workers.map (·.deeds), s.lines.map line⟩

def collect (parent : Text) (c : Collection ρ η) : Report η :=
  (c.schedule c.budget c.start).report parent

def facetLines (handles : List (Handle ρ)) (report : Report η) : List Text :=
  (handles.zip report.deeds).flatMap fun (h, deeds) => (Deed.lines deeds).map (readingLine h.name)

end Deployments.Collection
