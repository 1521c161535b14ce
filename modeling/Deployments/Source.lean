import Deployments.Config
import Deployments.Files
import Deployments.Inventory
import Deployments.Placeholder
import Deployments.Yaml.Document

/-!
Loading documents, configurations and inventories from files. An empty document counts as an empty
mapping.
-/

namespace Deployments

open Reading

/-- Why something could not be loaded. -/
inductive LoadError where
  /-- There is no file under the path. -/
  | missing (kind : String) (path : Text)
  | directory (path : Text)
  | tooLong (path : Text)
  /-- The bytes of the file encode no text. -/
  | undecodable
  /-- The text is no document. -/
  | document (fault : Yaml.Fault)
  /-- The document is not what it should be. -/
  | invalid (title : String) (defects : List Defect)
  | fault (fault : Fault)
  deriving Repr, Inhabited

namespace LoadError

def message : LoadError → Text
  | missing kind path => kind ++ " file not found: " ++ path
  | directory path => "[Errno 21] Is a directory: " ++ Text.quoted path
  | tooLong path => "[Errno 36] File name too long: " ++ Text.quoted path
  | undecodable => ""
  | document f => f.message
  | invalid title defects => report title defects
  | fault f => f.message

end LoadError

namespace Source

def lines : List Char → List Char
  | '\r' :: '\n' :: cs => '\n' :: lines cs
  | '\r' :: cs => '\n' :: lines cs
  | c :: cs => c :: lines cs
  | [] => []

/-- The value, or the empty mapping in place of one that counts as absent. -/
def orEmpty (v : Value) : Value := if v.isTruthy then v else .dict []

def parse (order : SetOrder) (bytes : List UInt8) : Except LoadError Value :=
  match Text.decode? bytes with
  | none => .error .undecodable
  | some text => match Yaml.load order (lines text.toList) with
    | .ok v => .ok (orEmpty v)
    | .error e => .error (.document e)

/-- The document under a path; `kind` names it where it is missing. -/
def read (files : Files) (order : SetOrder) (kind : String) (path : Text) :
    Except LoadError Value :=
  match files.find path with
  | .nothing => .error (.missing kind path)
  | .directory => .error (.directory (Files.normal path))
  | .tooLong => .error (.tooLong (Files.normal path))
  | .file bytes => parse order bytes

def isName : Value → Bool
  | .text _ => true
  | _ => false

/-- The record that a mapping of named fields gives. -/
def named {α : Type} (title reader : String) (fields : Entries → Checked α) :
    Value → Except LoadError α
  | .dict entries =>
    if entries.all fun e => isName e.1 then
      match fields entries with
      | .ok a => .ok a
      | .invalid ds => .error (.invalid title ds)
      | .aborted f => .error (.fault f)
    else .error (.fault .keyNotText)
  | v => .error (.fault (.notMapping reader v.typeName))

end Source

namespace Inventory

def reader : String := "bosh_topology.director.static.DirectorInventory"

def ofValue (v : Value) : Except LoadError Inventory :=
  Source.named title reader readFields (Source.orEmpty v)

def load (files : Files) (order : SetOrder) (path : Text) : Except LoadError Inventory :=
  (Source.read files order "Inventory" path).bind ofValue

end Inventory

namespace Config

def reader : String := "bosh_topology.config.models.CollectorSystemConfig"

/-- The configuration that a document gives, with placeholders replaced. -/
def ofValue (env : Environment) (v : Value) : Except LoadError Config :=
  Source.named title reader readFields (Placeholder.substitute env v)

/-- The replacement of placeholders does not come to an end in an endless document. -/
def ofDocument (env : Environment) (document : Value) : Except LoadError Config :=
  if document.isEndless then .error (.fault .endless) else ofValue env document

def load (files : Files) (env : Environment) (order : SetOrder) (path : Text) :
    Except LoadError Config :=
  (Source.read files order "Configuration" path).bind (ofDocument env)

end Config

end Deployments
