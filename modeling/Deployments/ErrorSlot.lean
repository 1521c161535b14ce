/-!
A place for one error. The first error offered stays; later ones are turned away.
-/

namespace Deployments

structure ErrorSlot (ε : Type) where
  held : Option ε
  deriving Repr, Inhabited

namespace ErrorSlot

variable {ε : Type}

def empty : ErrorSlot ε := ⟨none⟩

/-- An offer: whether the error was stored, and the slot after it. -/
def offer (slot : ErrorSlot ε) (error : ε) : Bool × ErrorSlot ε :=
  match slot.held with
  | none => (true, ⟨some error⟩)
  | some _ => (false, slot)

/-- The first error offered stays. -/
theorem held_offer (slot : ErrorSlot ε) (error : ε) :
    (slot.offer error).2.held = slot.held.or (some error) := by
  unfold offer
  cases held : slot.held with
  | none => rfl
  | some first => exact held

end ErrorSlot

end Deployments
