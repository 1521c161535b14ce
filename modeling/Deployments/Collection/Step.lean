import Deployments.ErrorSlot
import Deployments.Handle
import Deployments.Log

/-!
The collection of many deployments at once. Every deployment has a worker of its own, which reads
its facets one after another; a loop is told of workers that are done, wakes up when one has failed
or all are done, and then looks at the error slot and at the results. Workers and the loop take
their steps in any order: `step?` says which steps there are and what each one does.
-/

namespace Deployments

/-- What the end of a call may wait for, besides its answer. -/
structure Gates where
  /-- The call of a worker for a facet ends only after the collection has returned. -/
  held : Nat → Facet → Bool
  /-- The calls that have to be started before the call of a worker for a facet ends. -/
  awaited : Nat → Facet → List (Nat × Facet)

namespace Gates

def free : Gates := ⟨fun _ _ => false, fun _ _ => []⟩

end Gates

/-- The deployments to collect, how their records are mapped, and what their calls wait for. -/
structure Collection (ρ η : Facet → Type) where
  map : Mapping ρ η
  handles : List (Handle ρ)
  gates : Gates

namespace Collection

variable {ρ η : Facet → Type}

/-- The number of deployments that are read at the same time: all of them. -/
def pool (c : Collection ρ η) : Nat := c.handles.length

/-- What a worker does next. -/
inductive Stage (ρ η : Facet → Type) where
  | queued
  /-- It starts the call for the first of the facets still to be read, or has no more to read. -/
  | ready (todo : List Facet)
  /-- It waits for the end of its call; the facets after it are still to be read. -/
  | calling (facet : Facet) (todo : List Facet)
  | mapping (facet : Facet) (records : List (ρ facet)) (todo : List Facet)
  | offering (error : Failure)
  /-- It logs its error, which the slot has stored. -/
  | announcing (error : Failure)
  | settling (result : Except Failure (Snapshot η))
  /-- It is done, and the loop is still to be told. -/
  | settled (result : Except Failure (Snapshot η))
  /-- The loop has been told of its result. -/
  | delivered (result : Except Failure (Snapshot η))

structure Worker (ρ η : Facet → Type) where
  read : Snapshot η
  deeds : List Deed
  stage : Stage ρ η

/-- What the loop does next. -/
inductive Waiter (η : Facet → Type) where
  | waiting
  /-- It looks at the slot and the results. -/
  | awake
  | returned (outcome : Except Failure (List (Snapshot η)))

structure State (ρ η : Facet → Type) where
  workers : List (Worker ρ η)
  slot : ErrorSlot Failure
  waiter : Waiter η
  lines : List (Level × Text)

inductive Action where
  | worker (i : Nat)
  /-- The loop is told of the end of a worker. -/
  | deliver (i : Nat)
  | wake
  | finish
  deriving DecidableEq, Repr, Inhabited

namespace Stage

def isActive : Stage ρ η → Bool
  | queued | settled _ | delivered _ => false
  | _ => true

def isQueued : Stage ρ η → Bool
  | queued => true
  | _ => false

def isDone : Stage ρ η → Bool
  | settled _ | delivered _ => true
  | _ => false

/-- The result of which the loop has been told. -/
def result? : Stage ρ η → Option (Except Failure (Snapshot η))
  | delivered result => some result
  | _ => none

/-- What follows an error: it is offered to the slot if it is one that callers handle. -/
def ofFailure (e : Failure) : Stage ρ η :=
  if e.isOrdinary then offering e else settling (.error e)

end Stage

/-- What a step of a worker does: the worker and the slot after it, and what it logs. -/
structure Move (ρ η : Facet → Type) where
  worker : Worker ρ η
  slot : ErrorSlot Failure
  lines : List (Level × Text)

namespace Worker

def start (h : Handle ρ) : Worker ρ η := ⟨.blank h.name, [], .queued⟩

def hasStarted (w : Worker ρ η) (facet : Facet) : Bool := w.deeds.contains (.call facet)

def moveTo (w : Worker ρ η) (slot : ErrorSlot Failure) (stage : Stage ρ η) : Move ρ η :=
  ⟨{ w with stage }, slot, []⟩

/-- The step of the worker of a handle, if it may take one: to begin it needs a place in the pool,
and its call for a facet ends only when that is open. -/
def move? (map : Mapping ρ η) (h : Handle ρ) (hasPlace : Bool) (isOpen : Facet → Bool)
    (slot : ErrorSlot Failure) (w : Worker ρ η) : Option (Move ρ η) :=
  match w.stage with
  | .queued => if hasPlace then some (w.moveTo slot (.ready Facet.all)) else none
  | .ready [] => some (w.moveTo slot (.settling (.ok w.read)))
  | .ready (facet :: todo) =>
    let deeds := w.deeds ++ [.line facet, .call facet]
    some (Worker.moveTo { w with deeds } slot (.calling facet todo))
  | .calling facet todo =>
    if isOpen facet then
      match h.answer facet with
      | .error e => some (w.moveTo slot (.ofFailure (h.failureOf facet e)))
      | .ok records => some (w.moveTo slot (.mapping facet records todo))
    else none
  | .mapping facet records todo =>
    match entriesOf (map facet) records with
    | .ok entries =>
      some (Worker.moveTo { w with read := w.read.set facet entries } slot (.ready todo))
    | .error f => some (w.moveTo slot (.ofFailure (.fault f)))
  | .offering e =>
    let (stored, slot) := slot.offer e
    some (w.moveTo slot (if stored then .announcing e else .settling (.error e)))
  | .announcing e =>
    some { w.moveTo slot (.settling (.error e)) with
      lines := [(.debug, "Stopping collection: " ++ e.message)] }
  | .settling result => some (w.moveTo slot (.settled result))
  | .settled _ | .delivered _ => none

def deliver? (w : Worker ρ η) : Option (Worker ρ η) :=
  match w.stage with
  | .settled result => some { w with stage := .delivered result }
  | _ => none

def hasFailed (w : Worker ρ η) : Bool :=
  match w.stage.result? with
  | some (.error _) => true
  | _ => false

end Worker

def counted (n : Nat) : Text := toString n ++ " deployment(s)"

/-- The state in which a collection begins. Without deployments it is over at once. -/
def start (c : Collection ρ η) : State ρ η where
  workers := c.handles.map Worker.start
  slot := .empty
  waiter := if c.handles.isEmpty then .returned (.ok []) else .waiting
  lines :=
    if c.handles.isEmpty then [(.debug, "No deployments to collect")]
    else [(.info, "Collecting " ++ counted c.handles.length)]

namespace State

def outcome? (s : State ρ η) : Option (Except Failure (List (Snapshot η))) :=
  match s.waiter with
  | .returned outcome => some outcome
  | _ => none

def hasStarted (s : State ρ η) (i : Nat) (facet : Facet) : Bool :=
  (s.workers[i]?).any (·.hasStarted facet)

def active (s : State ρ η) : Nat := s.workers.countP (·.stage.isActive)

def allDelivered (s : State ρ η) : Bool := s.workers.all (·.stage.result?.isSome)

/-- The results of workers in their order, up to the first that is missing or an error. -/
def results : List (Worker ρ η) → Except Failure (List (Snapshot η))
  | [] => .ok []
  | w :: ws =>
    match w.stage.result? with
    | some (.ok snapshot) => (results ws).map (snapshot :: ·)
    | some (.error e) => .error e
    | none => .error .unfinished

/-- What the loop returns: the error in the slot, or else the results. -/
def verdict (s : State ρ η) : Except Failure (List (Snapshot η)) :=
  match s.slot.held with
  | some e => .error e
  | none => results s.workers

def put (s : State ρ η) (i : Nat) (w : Worker ρ η) : State ρ η :=
  { s with workers := s.workers.set i w }

def after (s : State ρ η) (i : Nat) (m : Move ρ η) : State ρ η :=
  { s.put i m.worker with slot := m.slot, lines := s.lines ++ m.lines }

def finished (s : State ρ η) : State ρ η :=
  { s with
    waiter := .returned s.verdict
    lines := s.lines ++ match s.verdict with
      | .ok snapshots => [(.info, "Collected " ++ counted snapshots.length)]
      | .error _ => [] }

end State

/-- A worker may take a place in the pool: there is one, and those before it have got theirs. -/
def hasPlace (c : Collection ρ η) (s : State ρ η) (i : Nat) : Bool :=
  s.active < c.pool && (s.workers.take i).all (!·.stage.isQueued)

def isOpen (c : Collection ρ η) (s : State ρ η) (i : Nat) (facet : Facet) : Bool :=
  (!c.gates.held i facet || s.outcome?.isSome) &&
    (c.gates.awaited i facet).all fun call => s.hasStarted call.1 call.2

/-- What a step does, if it can be taken. -/
def step? (c : Collection ρ η) (s : State ρ η) : Action → Option (State ρ η)
  | .worker i =>
    match c.handles[i]?, s.workers[i]? with
    | some h, some w => (w.move? c.map h (c.hasPlace s i) (c.isOpen s i) s.slot).map (s.after i)
    | _, _ => none
  | .deliver i => (s.workers[i]?).bind fun w => w.deliver?.map (s.put i)
  | .wake =>
    match s.waiter with
    | .waiting =>
      if s.workers.any (·.hasFailed) || s.allDelivered then some { s with waiter := .awake }
      else none
    | _ => none
  | .finish =>
    match s.waiter with
    | .awake => some s.finished
    | _ => none

end Collection

end Deployments
