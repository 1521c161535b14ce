import Deployments.Reading.FieldReader
import Deployments.Text.Upper

/-!
The configuration of a collection: where the inventory is, which deployments are selected, and
how much is logged.
-/

namespace Deployments

open Reading

namespace Config

structure Director where
  inventoryPath : Text
  deriving DecidableEq, Repr, Inhabited

/-- The names of the selected deployments; no name selects all. -/
structure Filters where
  deployments : List Text
  deriving DecidableEq, Repr, Inhabited

structure Logging where
  level : Text
  deriving DecidableEq, Repr, Inhabited

namespace Director

def title : String := "DirectorConfig"

def read : Value → Checked Director :=
  record title fun es => mk <$> (FieldReader.required "inventory_path" text).get es

def toValue (r : Director) : Value := .record [("inventory_path", .text r.inventoryPath)]

end Director

namespace Filters

def title : String := "FiltersConfig"

/-- The selection when nothing is given. -/
def absent : Filters := ⟨[]⟩

/-- The names without the spaces around them, and without those that are blank. -/
def stripped (names : List Text) : List Text :=
  (names.map Text.strip).filter (· != "")

def read : Value → Checked Filters :=
  record title fun es =>
    mk <$> (FieldReader.optional "deployments" [] fun v => (list text v).map stripped).get es

def toValue (r : Filters) : Value := .record [("deployments", .list (r.deployments.map .text))]

end Filters

namespace Logging

def title : String := "LoggingConfig"

def levels : List Text := ["DEBUG", "INFO", "WARNING", "ERROR", "CRITICAL"]

/-- The level when none is given. -/
def absent : Logging := ⟨"INFO"⟩

def readLevel (v : Value) : Checked Text :=
  (text v).bind fun s =>
    let level := Text.upper s
    if levels.contains level then .ok level else .refused .unknownLevel

def read : Value → Checked Logging :=
  record title fun es => mk <$> (FieldReader.optional "level" absent.level readLevel).get es

def toValue (r : Logging) : Value := .record [("level", .text r.level)]

end Logging

end Config

structure Config where
  director : Config.Director
  filters : Config.Filters
  logging : Config.Logging
  deriving DecidableEq, Repr, Inhabited

namespace Config

def title : String := "CollectorSystemConfig"

def readFields (es : Entries) : Checked Config :=
  mk <$> (FieldReader.required "director" Director.read).get es
    <*> (FieldReader.optional "filters" .absent Filters.read).get es
    <*> (FieldReader.optional "logging" .absent Logging.read).get es

def read : Value → Checked Config := record title readFields

def toValue (r : Config) : Value :=
  .record [("director", r.director.toValue), ("filters", r.filters.toValue),
    ("logging", r.logging.toValue)]

end Config

end Deployments
