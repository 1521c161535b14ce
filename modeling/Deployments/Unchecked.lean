import Deployments.Handle

/-!
Records that were not checked. A handle may serve nothing in place of a record, or a record built
from fields of any values, some of them absent. Mapping such a record takes its values as they are
and fails where one lacks what is asked of it.
-/

namespace Deployments

/-- A record as a handle may serve it. -/
inductive Served (α : Type) where
  | checked (record : α)
  | missing
  | unchecked (fields : List (String × Value))
  deriving Inhabited

/-- An entry, or one made of unchecked values. -/
inductive Loose (α : Type) where
  | checked (entry : α)
  | unchecked (value : Value)
  deriving Inhabited

namespace Unchecked

abbrev Fields := List (String × Value)

def required (title : String) (fields : Fields) (key : String) : Except Fault Value :=
  match fields.lookup key with
  | some v => .ok v
  | none => .error (.missingAttribute title key)

/-- The value of a field, under the first of its keys that is there. -/
def optional (absent : Value) (fields : Fields) (keys : List String) : Value :=
  (keys.findSome? fun key => fields.lookup key).getD absent

def requiredText (title : String) (fields : Fields) (key : String) : Except Fault Value :=
  (required title fields key).bind fun v => v.display.map .text

def items (v : Value) : Except Fault (List Value) :=
  match v.items? with
  | some vs => .ok vs
  | none => .error (.notIterable v.typeName)

/-- Nothing, as no value has the fields of a record. -/
def noneHas (key : String) : List Value → Except Fault Unit
  | [] => .ok ()
  | v :: _ => .error (.missingAttribute v.typeName key)

def errand (fields : Fields) : Except Fault Value := do
  return .record [("name", ← required Record.Errand.title fields "name")]

def release (fields : Fields) : Except Fault Value := do
  let title := Record.Release.title
  return .record [("name", ← required title fields "name"),
    ("version", ← requiredText title fields "version")]

def stemcell (fields : Fields) : Except Fault Value := do
  let title := Record.Stemcell.title
  return .record [("name", ← required title fields "name"),
    ("version", ← requiredText title fields "version"),
    ("os_name", optional (.text "") fields ["operating_system", "os_name"])]

/-- The instance of an unchecked record, unless it has no machine. Its vitals and processes cannot
be read from raw values. -/
def instance? (fields : Fields) : Except Fault (Option Value) :=
  let text (keys : List String) : Value := optional (.text "") fields keys
  let flag (key : String) : Value := optional (.bool false) fields [key]
  if (text ["vm_cid", "vm_id"]).isTruthy then do
    let ips ← items (optional (.list []) fields ["ips"])
    let processes := optional (.list []) fields ["processes"]
    let isUp : Bool := (match text ["job_state", "process_state"] with
      | .text s => s == Record.running
      | _ => false)
    if isUp then noneHas "is_running" (← items processes)
    let index ← match optional .null fields ["index"] with
      | .null => pure .null
      | v => v.display.map Value.text
    noneHas "name" (← items processes)
    match fields.lookup "vitals" with
    | some v => throw (.missingAttribute v.typeName "cpu")
    | none => pure ()
    return some (.record [("agent_id", text ["agent_id"]), ("name", text ["job_name"]),
      ("id", text ["id"]), ("bootstrap", flag "bootstrap"), ("ips", .list ips),
      ("az", text ["az"]), ("vm_type", text ["vm_type"]),
      ("resource_pool", text ["resource_pool"]),
      ("resurrection_paused", flag "resurrection_paused"), ("healthy", .bool isUp),
      ("index", index), ("processes", .list []),
      ("vitals", (Snapshot.Vitals.ofRecord .absent).toJson.toValue)])
  else .ok none

def entryOf (fields : Fields) : Facet → Except Fault (Option Value)
  | .errands => (errand fields).map some
  | .instances => instance? fields
  | .releases => (release fields).map some
  | .stemcells => (stemcell fields).map some

/-- What is asked first of a record of a facet. -/
def firstKey : Facet → String
  | .instances => "vm_id"
  | _ => "name"

def mapping : Mapping (fun facet => Served facet.Record) (fun facet => Loose facet.Entry)
  | facet, .checked r => (facet.entryOf r).map (·.map .checked)
  | facet, .missing => .error (.missingAttribute Value.null.typeName (firstKey facet))
  | facet, .unchecked fields => (entryOf fields facet).map (·.map .unchecked)

end Unchecked

def Loose.toValue (facet : Facet) : Loose facet.Entry → Value
  | .checked e => (facet.entryJson e).toValue
  | .unchecked v => v

end Deployments
