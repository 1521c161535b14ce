import Deployments.ErrorSlot

/-!
A slot that threads share. A call of it takes a lock, does its work, and gives the lock back before
it returns, one step at a time; the steps of different calls follow one another in any order in
which the lock lets them. A thread makes one call after another, whichever it likes.
-/

namespace Deployments.ErrorSlot

variable {ι ε : Type}

inductive Request (ε : Type) where
  | offer (error : ε)
  | look
  deriving DecidableEq, Repr, Inhabited

inductive Answer (ε : Type) where
  /-- Whether the error that was offered has been stored. -/
  | stored (done : Bool)
  | held (error : Option ε)
  deriving DecidableEq, Repr, Inhabited

/-- The answer to a request and the slot after it, if nothing comes in between. -/
def serve (slot : ErrorSlot ε) : Request ε → Answer ε × ErrorSlot ε
  | .offer e => let (done, slot) := slot.offer e; (.stored done, slot)
  | .look => (.held slot.held, slot)

/-- The slot after requests that are served one by one. -/
def after (slot : ErrorSlot ε) (requests : List (Request ε)) : ErrorSlot ε :=
  requests.foldl (fun slot request => (slot.serve request).2) slot

/-- The answers to requests that are served one by one. -/
def answers : ErrorSlot ε → List (Request ε) → List (Answer ε)
  | _, [] => []
  | slot, request :: rest => (slot.serve request).1 :: answers (slot.serve request).2 rest

/-- What a call does next. -/
inductive Stage (ε : Type) where
  /-- It takes the lock. -/
  | entering
  /-- It looks into the slot. -/
  | testing
  /-- It has found the slot empty and stores its error. -/
  | storing (error : ε)
  /-- It gives the lock back. -/
  | leaving (answer : Answer ε)
  | returning (answer : Answer ε)
  | returned (answer : Answer ε)
  deriving DecidableEq, Repr, Inhabited

namespace Stage

def isReturned : Stage ε → Bool
  | returned _ => true
  | _ => false

/-- What follows the look into a slot. -/
def ofTest (slot : ErrorSlot ε) : Request ε → Stage ε
  | .offer e => if slot.held.isSome then leaving (.stored false) else storing e
  | .look => leaving (.held slot.held)

end Stage

structure Call (ι ε : Type) where
  thread : ι
  request : Request ε
  stage : Stage ε
  deriving DecidableEq, Repr, Inhabited

/-- What happens to a call, which is known by its number. -/
inductive Event (ε : Type) where
  | called (k : Nat)
  | stored (k : Nat)
  | returned (k : Nat) (answer : Answer ε)
  deriving DecidableEq, Repr, Inhabited

structure Shared (ι ε : Type) where
  slot : ErrorSlot ε
  isLocked : Bool
  /-- All calls that have been made, in their order. -/
  calls : List (Call ι ε)
  /-- What has happened so far. -/
  events : List (Event ε)
  deriving Repr, Inhabited

inductive Action (ι ε : Type) where
  /-- A thread makes a call. -/
  | call (thread : ι) (request : Request ε)
  /-- A call takes its next step. -/
  | step (k : Nat)
  deriving DecidableEq, Repr, Inhabited

namespace Shared

def start : Shared ι ε := ⟨.empty, false, [], []⟩

def put (s : Shared ι ε) (k : Nat) (c : Call ι ε) (stage : Stage ε) : Shared ι ε :=
  { s with calls := s.calls.set k { c with stage } }

/-- One more call, which is still to take its first step. -/
def begin (s : Shared ι ε) (thread : ι) (request : Request ε) : Shared ι ε :=
  { s with
    calls := s.calls ++ [⟨thread, request, .entering⟩]
    events := s.events ++ [.called s.calls.length] }

/-- What the next step of a call does, if it can be taken. -/
def advance? (s : Shared ι ε) (k : Nat) (c : Call ι ε) : Option (Shared ι ε) :=
  match c.stage with
  | .entering => if s.isLocked then none else some { s.put k c .testing with isLocked := true }
  | .testing => some (s.put k c (.ofTest s.slot c.request))
  | .storing e =>
    some { s.put k c (.leaving (.stored true)) with
      slot := ⟨some e⟩
      events := s.events ++ [.stored k] }
  | .leaving answer => some { s.put k c (.returning answer) with isLocked := false }
  | .returning answer =>
    some { s.put k c (.returned answer) with events := s.events ++ [.returned k answer] }
  | .returned _ => none

/-- A thread makes a call when its last one has returned. -/
def step? [DecidableEq ι] (s : Shared ι ε) : Action ι ε → Option (Shared ι ε)
  | .call thread request =>
    if s.calls.all fun c => decide (c.thread ≠ thread) || c.stage.isReturned then
      some (s.begin thread request)
    else none
  | .step k => (s.calls[k]?).bind (s.advance? k)

/-- The state after a row of steps, if each of them can be taken. -/
def runFrom? [DecidableEq ι] (s : Shared ι ε) (actions : List (Action ι ε)) :
    Option (Shared ι ε) :=
  actions.foldlM step? s

end Shared

end Deployments.ErrorSlot
