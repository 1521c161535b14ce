import Deployments.Record.Catalogue
import Deployments.Record.Machine

/-!
Inventories: the recorded state of the deployments a director knows.
-/

namespace Deployments

open Reading

namespace Inventory

structure Entry where
  name : Text
  errands : List Record.Errand
  instances : List Record.Machine
  releases : List Record.Release
  stemcells : List Record.Stemcell
  deriving DecidableEq, Repr, Inhabited

namespace Entry

def title : String := "DeploymentInventory"

def read : Value → Checked Entry :=
  record title fun es =>
    mk <$> (FieldReader.required "name" text).get es
      <*> (FieldReader.optional "errands" [] (list Record.Errand.read)).get es
      <*> (FieldReader.optional "instances" [] (list Record.Machine.read)).get es
      <*> (FieldReader.optional "releases" [] (list Record.Release.read)).get es
      <*> (FieldReader.optional "stemcells" [] (list Record.Stemcell.read)).get es

def toValue (r : Entry) : Value :=
  .record [("name", .text r.name), ("errands", .list (r.errands.map (·.toValue))),
    ("instances", .list (r.instances.map (·.toValue))),
    ("releases", .list (r.releases.map (·.toValue))),
    ("stemcells", .list (r.stemcells.map (·.toValue)))]

end Entry

end Inventory

structure Inventory where
  deployments : List Inventory.Entry
  deriving DecidableEq, Repr, Inhabited

namespace Inventory

def title : String := "DirectorInventory"

def readFields (es : Entries) : Checked Inventory :=
  mk <$> (FieldReader.optional "deployments" [] (list Entry.read)).get es

def read : Value → Checked Inventory := record title readFields

def toValue (r : Inventory) : Value :=
  .record [("deployments", .list (r.deployments.map (·.toValue)))]

end Inventory

end Deployments
