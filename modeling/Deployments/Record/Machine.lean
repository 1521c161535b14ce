import Deployments.Record.Vitals

/-!
Records of processes and of the machines they run on. A machine that has not been created is a
placeholder; its identity is empty.
-/

namespace Deployments.Record

open Decimal Reading

structure ProcessCpu where
  total : Binary64
  deriving DecidableEq, Repr, Inhabited

structure ProcessMem where
  kb : Int
  percent : Binary64
  deriving DecidableEq, Repr, Inhabited

structure Process where
  name : Text
  state : Text
  uptime : Uptime
  cpu : ProcessCpu
  mem : ProcessMem
  deriving DecidableEq, Repr, Inhabited

structure Machine where
  agentId : Text
  jobName : Text
  id : Text
  index : Option Int
  jobState : Text
  bootstrap : Bool
  ips : List Text
  az : Text
  vmId : Text
  vmType : Text
  resourcePool : Text
  resurrectionPaused : Bool
  vitals : Vitals
  processes : List Process
  deriving DecidableEq, Repr, Inhabited

namespace ProcessCpu

def title : String := "ProcessCPU"

/-- The record when nothing is given. -/
def absent : ProcessCpu := ⟨noNumber⟩

def read : Value → Checked ProcessCpu :=
  record title fun es => mk <$> (vitalField "total").get es

def toValue (r : ProcessCpu) : Value := .record [("total", .float r.total)]

end ProcessCpu

namespace ProcessMem

def title : String := "ProcessMem"

/-- The record when nothing is given. -/
def absent : ProcessMem := ⟨0, noNumber⟩

def read : Value → Checked ProcessMem :=
  record title fun es =>
    mk <$> (FieldReader.optional "kb" 0 fun v => integer (blankAsZero v)).get es
      <*> (vitalField "percent").get es

def toValue (r : ProcessMem) : Value := .record [("kb", .int r.kb), ("percent", .float r.percent)]

end ProcessMem

def running : Text := "running"

namespace Process

def title : String := "ProcessInfo"

def read : Value → Checked Process :=
  record title fun es =>
    mk <$> (FieldReader.required "name" text).get es
      <*> (FieldReader.optional "state" ("" : Text) text).get es
      <*> (FieldReader.optional "uptime" .absent Uptime.read).get es
      <*> (FieldReader.optional "cpu" .absent ProcessCpu.read).get es
      <*> (FieldReader.optional "mem" .absent ProcessMem.read).get es

def toValue (r : Process) : Value :=
  .record [("name", .text r.name), ("state", .text r.state), ("uptime", r.uptime.toValue),
    ("cpu", r.cpu.toValue), ("mem", r.mem.toValue)]

def isRunning (r : Process) : Bool := r.state == running

end Process

namespace Machine

def title : String := "VMInfo"

/-- A text that may be left out or null, and is empty then. -/
def textField (key : Text) : FieldReader Text :=
  FieldReader.optional key "" fun v => text (nullAs (.text "") v)

/-- A list that may be left out or null, and is empty then. -/
def listField {α : Type} (key : Text) (read : Value → Checked α) : FieldReader (List α) :=
  FieldReader.optional key [] fun v => list read (nullAs (.list []) v)

def read : Value → Checked Machine :=
  record title fun es =>
    mk <$> (textField "agent_id").get es
      <*> (textField "job_name").get es
      <*> (textField "id").get es
      <*> (FieldReader.optional "index" none (optional integer)).get es
      <*> ((textField "job_state").orUnder "process_state").get es
      <*> (FieldReader.optional "bootstrap" false boolean).get es
      <*> (listField "ips" text).get es
      <*> (textField "az").get es
      <*> ((textField "vm_cid").orUnder "vm_id").get es
      <*> (textField "vm_type").get es
      <*> (textField "resource_pool").get es
      <*> (FieldReader.optional "resurrection_paused" false boolean).get es
      <*> (FieldReader.optional "vitals" .absent fun v => Vitals.read (nullAs (.dict []) v)).get es
      <*> (listField "processes" Process.read).get es

def toValue (r : Machine) : Value :=
  .record [("agent_id", .text r.agentId), ("job_name", .text r.jobName), ("id", .text r.id),
    ("index", (r.index.map Value.int).getD .null), ("process_state", .text r.jobState),
    ("bootstrap", .bool r.bootstrap), ("ips", .list (r.ips.map .text)), ("az", .text r.az),
    ("vm_id", .text r.vmId), ("vm_type", .text r.vmType),
    ("resource_pool", .text r.resourcePool),
    ("resurrection_paused", .bool r.resurrectionPaused), ("vitals", r.vitals.toValue),
    ("processes", .list (r.processes.map Process.toValue))]

def hasVm (r : Machine) : Bool := r.vmId != ""

/-- The machine's job is up, and so are all its processes. -/
def isRunning (r : Machine) : Bool :=
  r.jobState == running && r.processes.all Process.isRunning

end Machine

end Deployments.Record
