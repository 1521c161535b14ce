import Deployments.Collection.Run

/-!
Collections one after another by the same collector. A cycle begins when those before it have
returned, while their workers may still be running. The threads and the error slots of all cycles
lie in one memory: a thread knows the place of the slot to which it offers its error, and a cycle
the places of the threads for which it waits and of the slot at which it looks. All of them write to
one log.
-/

namespace Deployments

/-- What a cycle is to collect, or the failure for which its deployments could not be selected. -/
abbrev Plan (ρ η : Facet → Type) := Except Failure (Collection ρ η)

namespace Cycles

variable {ρ η : Facet → Type}

structure Thread (ρ η : Facet → Type) where
  handle : Handle ρ
  slot : Nat
  worker : Collection.Worker ρ η

structure Cycle (η : Facet → Type) where
  /-- The places of its threads, in the order of its deployments. -/
  threads : List Nat
  slot : Nat
  waiter : Collection.Waiter η

structure State (ρ η : Facet → Type) where
  cycles : List (Cycle η)
  threads : List (Thread ρ η)
  slots : List (ErrorSlot Failure)
  lines : List (Level × Text)

inductive Action where
  /-- The next cycle begins. -/
  | begin
  /-- A worker of a cycle takes a step, or the loop takes one for that cycle. -/
  | step (cycle : Nat) (action : Collection.Action)
  deriving DecidableEq, Repr, Inhabited

def start : State ρ η := ⟨[], [], [], []⟩

def Thread.start (slot : Nat) (h : Handle ρ) : Thread ρ η := ⟨h, slot, .start h⟩

def Cycle.outcome? (cycle : Cycle η) : Option (Except Failure (List (Snapshot η))) :=
  match cycle.waiter with
  | .returned outcome => some outcome
  | _ => none

namespace State

def outcome? (s : State ρ η) (k : Nat) : Option (Except Failure (List (Snapshot η))) :=
  (s.cycles[k]?).bind (·.outcome?)

/-- The threads at given places. -/
def threadsAt (s : State ρ η) (places : List Nat) : List (Option (Thread ρ η)) :=
  places.map (s.threads[·]?)

/-- What a cycle finds at its places. -/
def seen (s : State ρ η) (cycle : Cycle η) : Collection.State ρ η where
  workers := (s.threadsAt cycle.threads).filterMap (·.map (·.worker))
  slot := (s.slots[cycle.slot]?).getD .empty
  waiter := cycle.waiter
  lines := s.lines

/-- One more cycle, with a slot and threads of its own behind all others. -/
def add (s : State ρ η) (waiter : Collection.Waiter η) (handles : List (Handle ρ))
    (lines : List (Level × Text)) : State ρ η where
  cycles := s.cycles ++ [⟨List.range' s.threads.length handles.length, s.slots.length, waiter⟩]
  threads := s.threads ++ handles.map (Thread.start s.slots.length)
  slots := s.slots ++ [.empty]
  lines := s.lines ++ lines

def begin (s : State ρ η) : Plan ρ η → State ρ η
  | .error e => s.add (.returned (.error e)) [] []
  | .ok c => s.add c.start.waiter c.handles c.start.lines

def put (s : State ρ η) (place : Nat) (thread : Thread ρ η) : State ρ η :=
  { s with threads := s.threads.set place thread }

def after (s : State ρ η) (place : Nat) (thread : Thread ρ η) (m : Collection.Move ρ η) :
    State ρ η :=
  { s.put place { thread with worker := m.worker } with
    slots := s.slots.set thread.slot m.slot
    lines := s.lines ++ m.lines }

/-- What the loop has done for a cycle, seen from that cycle. -/
def follow (s : State ρ η) (k : Nat) (cycle : Cycle η) (t : Collection.State ρ η) : State ρ η :=
  { s with
    cycles := s.cycles.set k { cycle with waiter := t.waiter }
    lines := t.lines }

end State

/-- What a step does that is taken for a cycle, if it can be taken. -/
def stepOf? (c : Collection ρ η) (s : State ρ η) (k : Nat) (cycle : Cycle η) :
    Collection.Action → Option (State ρ η)
  | .worker i =>
    (cycle.threads[i]?).bind fun place => (s.threads[place]?).bind fun thread =>
      (s.slots[thread.slot]?).bind fun slot =>
        (thread.worker.move? c.map thread.handle (c.hasPlace (s.seen cycle) i)
          (c.isOpen (s.seen cycle) i) slot).map (s.after place thread)
  | .deliver i =>
    (cycle.threads[i]?).bind fun place => (s.threads[place]?).bind fun thread =>
      thread.worker.deliver?.map fun worker => s.put place { thread with worker }
  | action => (c.step? (s.seen cycle) action).map (s.follow k cycle)

def step? (plans : List (Plan ρ η)) (s : State ρ η) : Action → Option (State ρ η)
  | .begin =>
    if s.cycles.all (·.outcome?.isSome) then (plans[s.cycles.length]?).map s.begin else none
  | .step k action =>
    match plans[k]?, s.cycles[k]? with
    | some (.ok c), some cycle => stepOf? c s k cycle action
    | _, _ => none

/-- The state after a row of steps, if each of them can be taken. -/
def runFrom? (plans : List (Plan ρ η)) (s : State ρ η) (actions : List Action) :
    Option (State ρ η) :=
  actions.foldlM (step? plans) s

def IsFinal (plans : List (Plan ρ η)) (s : State ρ η) : Prop :=
  ∀ action, step? plans s action = none

end Cycles

end Deployments
