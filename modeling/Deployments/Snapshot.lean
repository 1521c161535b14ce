import Deployments.Facet
import Deployments.Inventory
import Deployments.Json

/-!
Snapshots: what is kept of the four facets of a deployment, and the parts they are made of.
-/

namespace Deployments

open Decimal

/-- A snapshot of a deployment whose entries are of given types. -/
structure Snapshot (η : Facet → Type) where
  name : Text
  errands : List (η .errands)
  instances : List (η .instances)
  releases : List (η .releases)
  stemcells : List (η .stemcells)

namespace Snapshot

variable {η : Facet → Type}

/-- The snapshot of a deployment of which nothing has been read. -/
def blank (name : Text) : Snapshot η := ⟨name, [], [], [], []⟩

def get (s : Snapshot η) : (facet : Facet) → List (η facet)
  | .errands => s.errands
  | .instances => s.instances
  | .releases => s.releases
  | .stemcells => s.stemcells

def set (s : Snapshot η) : (facet : Facet) → List (η facet) → Snapshot η
  | .errands, entries => { s with errands := entries }
  | .instances, entries => { s with instances := entries }
  | .releases, entries => { s with releases := entries }
  | .stemcells, entries => { s with stemcells := entries }

@[simp] theorem get_set_self (s : Snapshot η) (facet : Facet) (entries : List (η facet)) :
    (s.set facet entries).get facet = entries := by cases facet <;> rfl

theorem get_set_of_ne (s : Snapshot η) {facet other : Facet} (entries : List (η facet))
    (h : other ≠ facet) : (s.set facet entries).get other = s.get other := by
  cases facet <;> cases other <;> first | rfl | exact absurd rfl h

@[simp] theorem name_set (s : Snapshot η) (facet : Facet) (entries : List (η facet)) :
    (s.set facet entries).name = s.name := by cases facet <;> rfl

structure Errand where
  name : Text
  deriving DecidableEq, Repr, Inhabited

structure Release where
  name : Text
  version : Text
  deriving DecidableEq, Repr, Inhabited

structure Stemcell where
  name : Text
  version : Text
  osName : Text
  deriving DecidableEq, Repr, Inhabited

/-- Processor usage: that of a machine by kinds of work, that of a process in total. -/
structure Cpu where
  sys : Binary64
  user : Binary64
  wait : Binary64
  total : Binary64
  deriving DecidableEq, Repr, Inhabited

structure Mem where
  kb : Binary64
  percent : Binary64
  deriving DecidableEq, Repr, Inhabited

structure ProcessMem where
  kb : Int
  percent : Binary64
  deriving DecidableEq, Repr, Inhabited

structure Disk where
  inodePercent : Binary64
  percent : Binary64
  deriving DecidableEq, Repr, Inhabited

structure Vitals where
  cpu : Cpu
  mem : Mem
  swap : Mem
  uptime : Option Int
  load : List Binary64
  systemDisk : Disk
  ephemeralDisk : Disk
  persistentDisk : Disk
  deriving DecidableEq, Repr, Inhabited

structure Process where
  name : Text
  uptime : Option Int
  healthy : Bool
  cpu : Cpu
  mem : ProcessMem
  deriving DecidableEq, Repr, Inhabited

structure Instance where
  agentId : Text
  name : Text
  id : Text
  bootstrap : Bool
  ips : List Text
  az : Text
  vmType : Text
  resourcePool : Text
  resurrectionPaused : Bool
  healthy : Bool
  index : Option Text
  processes : List Process
  vitals : Vitals
  deriving DecidableEq, Repr, Inhabited

/-- A number or nothing, as a document. -/
def jsonOption {α : Type} (f : α → Json) (x : Option α) : Json := (x.map f).getD .null

namespace Errand

def ofRecord (r : Record.Errand) : Errand := ⟨r.name⟩

def toJson (e : Errand) : Json := .object [("name", .text e.name)]

end Errand

namespace Release

def ofRecord (r : Record.Release) : Release := ⟨r.name, r.version⟩

def toJson (e : Release) : Json := .object [("name", .text e.name), ("version", .text e.version)]

end Release

namespace Stemcell

def ofRecord (r : Record.Stemcell) : Stemcell := ⟨r.name, r.version, r.osName⟩

def toJson (e : Stemcell) : Json :=
  .object [("name", .text e.name), ("version", .text e.version), ("os_name", .text e.osName)]

end Stemcell

namespace Cpu

def ofRecord (r : Record.Cpu) : Cpu := ⟨r.sys, r.user, r.wait, Record.noNumber⟩

def ofTotal (r : Record.ProcessCpu) : Cpu :=
  ⟨Record.noNumber, Record.noNumber, Record.noNumber, r.total⟩

def toJson (e : Cpu) : Json :=
  .object [("sys", .float e.sys), ("user", .float e.user), ("wait", .float e.wait),
    ("total", .float e.total)]

end Cpu

namespace Mem

def ofRecord (r : Record.Mem) : Mem := ⟨r.kb, r.percent⟩

def toJson (e : Mem) : Json := .object [("kb", .float e.kb), ("percent", .float e.percent)]

end Mem

namespace ProcessMem

def ofRecord (r : Record.ProcessMem) : ProcessMem := ⟨r.kb, r.percent⟩

def toJson (e : ProcessMem) : Json := .object [("kb", .int e.kb), ("percent", .float e.percent)]

end ProcessMem

namespace Disk

def ofRecord (r : Record.Disk) : Disk := ⟨r.inodePercent, r.percent⟩

def toJson (e : Disk) : Json :=
  .object [("inode_percent", .float e.inodePercent), ("percent", .float e.percent)]

end Disk

namespace Vitals

def ofRecord (r : Record.Vitals) : Vitals :=
  ⟨.ofRecord r.cpu, .ofRecord r.mem, .ofRecord r.swap, r.uptime.secs, r.load,
    .ofRecord r.systemDisk, .ofRecord r.ephemeralDisk, .ofRecord r.persistentDisk⟩

def toJson (e : Vitals) : Json :=
  .object [("cpu", e.cpu.toJson), ("mem", e.mem.toJson), ("swap", e.swap.toJson),
    ("uptime", jsonOption .int e.uptime), ("load", .list (e.load.map .float)),
    ("system_disk", e.systemDisk.toJson), ("ephemeral_disk", e.ephemeralDisk.toJson),
    ("persistent_disk", e.persistentDisk.toJson)]

end Vitals

namespace Process

def ofRecord (r : Record.Process) : Process :=
  ⟨r.name, r.uptime.secs, r.isRunning, .ofTotal r.cpu, .ofRecord r.mem⟩

def toJson (e : Process) : Json :=
  .object [("name", .text e.name), ("uptime", jsonOption .int e.uptime),
    ("healthy", .bool e.healthy), ("cpu", e.cpu.toJson), ("mem", e.mem.toJson)]

end Process

namespace Instance

/-- The text of an index, which is limited in its digits. -/
def indexText : Option Int → Except Fault (Option Text)
  | none => .ok none
  | some n => match integer? n with
    | some s => .ok (some s)
    | none => .error .tooManyDigits

/-- The instance of a machine, unless its index has no text. -/
def ofRecord (r : Record.Machine) : Except Fault Instance :=
  (indexText r.index).map fun index =>
    ⟨r.agentId, r.jobName, r.id, r.bootstrap, r.ips, r.az, r.vmType, r.resourcePool,
      r.resurrectionPaused, r.isRunning, index, r.processes.map .ofRecord, .ofRecord r.vitals⟩

def toJson (e : Instance) : Json :=
  .object [("agent_id", .text e.agentId), ("name", .text e.name), ("id", .text e.id),
    ("bootstrap", .bool e.bootstrap), ("ips", .list (e.ips.map .text)), ("az", .text e.az),
    ("vm_type", .text e.vmType), ("resource_pool", .text e.resourcePool),
    ("resurrection_paused", .bool e.resurrectionPaused), ("healthy", .bool e.healthy),
    ("index", jsonOption .text e.index), ("processes", .list (e.processes.map (·.toJson))),
    ("vitals", e.vitals.toJson)]

end Instance

end Snapshot

namespace Facet

abbrev Record : Facet → Type
  | errands => Deployments.Record.Errand
  | instances => Deployments.Record.Machine
  | releases => Deployments.Record.Release
  | stemcells => Deployments.Record.Stemcell

def readRecord : (facet : Facet) → Value → Reading.Checked facet.Record
  | errands => Deployments.Record.Errand.read
  | instances => Deployments.Record.Machine.read
  | releases => Deployments.Record.Release.read
  | stemcells => Deployments.Record.Stemcell.read

def recordValue : (facet : Facet) → facet.Record → Value
  | errands => Deployments.Record.Errand.toValue
  | instances => Deployments.Record.Machine.toValue
  | releases => Deployments.Record.Release.toValue
  | stemcells => Deployments.Record.Stemcell.toValue

/-- The entries that a snapshot keeps of a facet. -/
abbrev Entry : Facet → Type
  | errands => Snapshot.Errand
  | instances => Snapshot.Instance
  | releases => Snapshot.Release
  | stemcells => Snapshot.Stemcell

/-- The entry of a record; a machine that does not exist has none. -/
def entryOf : (facet : Facet) → facet.Record → Except Fault (Option facet.Entry)
  | errands, r => .ok (some (.ofRecord r))
  | instances, r => if r.hasVm then (Snapshot.Instance.ofRecord r).map some else .ok none
  | releases, r => .ok (some (.ofRecord r))
  | stemcells, r => .ok (some (.ofRecord r))

def entryJson : (facet : Facet) → facet.Entry → Json
  | errands, e => Snapshot.Errand.toJson e
  | instances, e => Snapshot.Instance.toJson e
  | releases, e => Snapshot.Release.toJson e
  | stemcells, e => Snapshot.Stemcell.toJson e

end Facet

namespace Snapshot

/-- The snapshot as a document: its name and the facets in reading order. -/
def toJson (s : Snapshot Facet.Entry) : Json :=
  .object (("name", .text s.name) :: Facet.all.map fun facet =>
    (facet.key, .list ((s.get facet).map facet.entryJson)))

/-- Snapshots by their names, in the order of code points. -/
def sorted {η : Facet → Type} (snapshots : List (Snapshot η)) : List (Snapshot η) :=
  snapshots.mergeSort fun a b => a.name.inOrder b.name

/-- The text of snapshots, sorted by name. -/
def render (snapshots : List (Snapshot Facet.Entry)) : Except Fault String :=
  (Json.list ((sorted snapshots).map toJson)).render

end Snapshot

end Deployments
