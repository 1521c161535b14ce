import Deployments.Handle

/-!
Directors: they list the deployments they know and find one by its name. A recorded director
serves an inventory; of several entries of one name the last one counts, at the place of the first.
-/

namespace Deployments

structure Director (ρ : Facet → Type) where
  list : Except Raised (List (Handle ρ))
  find : Text → Except Raised (Handle ρ)

namespace Inventory

def Entry.records (entry : Entry) : (facet : Facet) → List facet.Record
  | .errands => entry.errands
  | .instances => entry.instances
  | .releases => entry.releases
  | .stemcells => entry.stemcells

def Entry.handle (entry : Entry) : Handle Facet.Record :=
  ⟨entry.name, fun facet => .ok (entry.records facet)⟩

def Entry.shown (entry : Entry) : String :=
  "StaticDeployment(name=" ++ Text.quoted entry.name ++ ")"

/-- An entry takes the place of one of its name, or comes last. -/
def record : List Entry → Entry → List Entry
  | [], entry => [entry]
  | old :: rest, entry => if old.name = entry.name then entry :: rest else old :: record rest entry

/-- The entries that count, by the first appearance of their names. -/
def known (inventory : Inventory) : List Entry := inventory.deployments.foldl record []

def find? (inventory : Inventory) (name : Text) : Option Entry :=
  inventory.known.find? fun entry => entry.name == name

def director (inventory : Inventory) : Director Facet.Record where
  list := .ok (inventory.known.map Entry.handle)
  find name := match inventory.find? name with
    | some entry => .ok entry.handle
    | none => .error (.notFound name)

end Inventory

end Deployments
