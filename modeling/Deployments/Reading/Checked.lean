import Deployments.Reading.Defect
import Deployments.Value

/-!
The outcome of reading a raw value: what was read, all defects found, or a fault that stopped the
reading. The parts of a value are all read, and their defects follow one another; the first fault
ends the reading and the defects found before it are dropped.
-/

namespace Deployments.Reading

inductive Checked (α : Type) where
  | ok (value : α)
  | invalid (defects : List Defect)
  | aborted (fault : Fault)
  deriving Repr, Inhabited, DecidableEq

namespace Checked

variable {α β γ : Type}

/-- A reading refused for one cause at the place itself. -/
def refused (cause : Cause) : Checked α := invalid [⟨[], cause⟩]

def map (f : α → β) : Checked α → Checked β
  | ok a => ok (f a)
  | invalid ds => invalid ds
  | aborted e => aborted e

def seq (f : Checked (α → β)) (x : Unit → Checked α) : Checked β :=
  match f with
  | aborted e => aborted e
  | ok g => (x ()).map g
  | invalid ds => match x () with
    | ok _ => invalid ds
    | invalid es => invalid (ds ++ es)
    | aborted e => aborted e

def bind (x : Checked α) (f : α → Checked β) : Checked β :=
  match x with
  | ok a => f a
  | invalid ds => invalid ds
  | aborted e => aborted e

instance : Applicative Checked where
  pure := ok
  map := map
  seq := seq

/-- The outcome with its defects seen from one step further out. -/
def under (place : Place) : Checked α → Checked α
  | ok a => ok a
  | invalid ds => invalid (ds.map (·.under place))
  | aborted e => aborted e

/-- The value read, if nothing was wrong. -/
def toOption : Checked α → Option α
  | ok a => some a
  | _ => none

/-- Readings of all items, from a given position on. -/
def items (read : Value → Checked α) : Nat → List Value → Checked (List α)
  | _, [] => ok []
  | i, v :: vs =>
    seq (map List.cons ((read v).under (.position i))) fun _ => items read (i + 1) vs

@[simp] theorem map_id (x : Checked α) : x.map id = x := by cases x <;> rfl

@[simp] theorem map_map (g : β → γ) (f : α → β) (x : Checked α) :
    (x.map f).map g = x.map (g ∘ f) := by cases x <;> rfl

end Checked

end Deployments.Reading
