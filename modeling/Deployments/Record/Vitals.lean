import Deployments.Reading.FieldReader

/-!
Records of the vitals of a machine. A vital that is null or empty is unknown and counts as zero.
-/

namespace Deployments.Record

open Decimal Reading

def noNumber : Binary64 := Binary64.zero false

/-- A vital that may be left out. -/
def vitalField (key : Text) : FieldReader Binary64 := FieldReader.optional key noNumber vital

/-- How long something has been up, in seconds. -/
structure Uptime where
  secs : Option Int
  deriving DecidableEq, Repr, Inhabited

structure Cpu where
  sys : Binary64
  user : Binary64
  wait : Binary64
  deriving DecidableEq, Repr, Inhabited

structure Mem where
  kb : Binary64
  percent : Binary64
  deriving DecidableEq, Repr, Inhabited

structure Disk where
  inodePercent : Binary64
  percent : Binary64
  deriving DecidableEq, Repr, Inhabited

/-- The vitals of a machine; disks are kept under their names. -/
structure Vitals where
  cpu : Cpu
  mem : Mem
  swap : Mem
  uptime : Uptime
  load : List Binary64
  disk : List (Text × Disk)
  deriving DecidableEq, Repr, Inhabited

namespace Uptime

def title : String := "Uptime"

/-- The record when nothing is given. -/
def absent : Uptime := ⟨none⟩

def read : Value → Checked Uptime :=
  record title fun es => mk <$> (FieldReader.optional "secs" none (optional integer)).get es

def toValue (r : Uptime) : Value := .record [("secs", (r.secs.map Value.int).getD .null)]

end Uptime

namespace Cpu

def title : String := "CPUVitals"

/-- The record when nothing is given. -/
def absent : Cpu := ⟨noNumber, noNumber, noNumber⟩

def read : Value → Checked Cpu :=
  record title fun es =>
    mk <$> (vitalField "sys").get es <*> (vitalField "user").get es <*> (vitalField "wait").get es

def toValue (r : Cpu) : Value :=
  .record [("sys", .float r.sys), ("user", .float r.user), ("wait", .float r.wait)]

end Cpu

namespace Mem

def title : String := "MemVitals"

/-- The record when nothing is given. -/
def absent : Mem := ⟨noNumber, noNumber⟩

def read : Value → Checked Mem :=
  record title fun es => mk <$> (vitalField "kb").get es <*> (vitalField "percent").get es

def toValue (r : Mem) : Value := .record [("kb", .float r.kb), ("percent", .float r.percent)]

end Mem

namespace Disk

def title : String := "DiskVitals"

/-- The record when nothing is given. -/
def absent : Disk := ⟨noNumber, noNumber⟩

def read : Value → Checked Disk :=
  record title fun es =>
    mk <$> (vitalField "inode_percent").get es <*> (vitalField "percent").get es

def toValue (r : Disk) : Value :=
  .record [("inode_percent", .float r.inodePercent), ("percent", .float r.percent)]

end Disk

/-- Disks under their names, in order. -/
abbrev Disks := List (Text × Disk)

namespace Disks

/-- Where the defects of an entry stand: under its name, under an integer, or under the text that
shows the key. -/
def place (key : Value) : Place :=
  match key with
  | .text s => .name s
  | .bool b => .position (if b then 1 else 0)
  | .int n =>
    if -wordBound ≤ n ∧ n < wordBound then .position n else .name (String.ofList (integer n))
  | v => .name (v.shown.toOption.getD "")

/-- A name that is there keeps its place and gets the new disk; a new one comes last. -/
def insert : Disks → Text → Disk → Disks
  | [], name, disk => [(name, disk)]
  | entry :: rest, name, disk =>
    if entry.1 = name then (name, disk) :: rest else entry :: insert rest name disk

def get? (name : Text) (disks : Disks) : Option Disk := disks.lookup name

/-- The entries that raw entries give; of each the name is read before the disk. -/
def readEntries : Entries → Checked Disks
  | [] => .ok []
  | (k, v) :: es =>
    (fun name disk rest => (name, disk) :: rest)
      <$> ((text k).under (.name "[key]")).under (place k)
      <*> (Disk.read v).under (place k)
      <*> readEntries es

/-- The disks that a raw value gives; of two entries with one name the later counts. -/
def read : Value → Checked Disks
  | .dict entries => (readEntries entries).map fun es =>
      es.foldl (fun disks entry => insert disks entry.1 entry.2) []
  | _ => .refused .dictType

end Disks

namespace Vitals

def title : String := "VMVitals"

/-- The record when nothing is given. -/
def absent : Vitals := ⟨.absent, .absent, .absent, .absent, [], []⟩

/-- The load averages that a raw value gives: nothing for null, else the items that the value is
walked through by. A value without items ends the reading. -/
def readLoad : Value → Checked (List Binary64)
  | .null => .ok []
  | v => match v.items? with
    | some items => Checked.items vital 0 items
    | none => .aborted (.notIterable v.typeName)

def read : Value → Checked Vitals :=
  record title fun es =>
    mk <$> (FieldReader.optional "cpu" .absent Cpu.read).get es
      <*> (FieldReader.optional "mem" .absent Mem.read).get es
      <*> (FieldReader.optional "swap" .absent Mem.read).get es
      <*> (FieldReader.optional "uptime" .absent Uptime.read).get es
      <*> (FieldReader.optional "load" [] readLoad).get es
      <*> (FieldReader.optional "disk" [] Disks.read).get es

def toValue (r : Vitals) : Value :=
  .record [("cpu", r.cpu.toValue), ("mem", r.mem.toValue), ("swap", r.swap.toValue),
    ("uptime", r.uptime.toValue), ("load", .list (r.load.map .float)),
    ("disk", .record (r.disk.map fun entry => (entry.1, entry.2.toValue)))]

/-- The disk of a name, or one that nothing is known of. -/
def diskNamed (r : Vitals) (name : Text) : Disk := (Disks.get? name r.disk).getD .absent

def systemDisk (r : Vitals) : Disk := r.diskNamed "system"

/-- The disk that does not outlive the machine. -/
def ephemeralDisk (r : Vitals) : Disk := r.diskNamed "ephemeral"

def persistentDisk (r : Vitals) : Disk := r.diskNamed "persistent"

end Vitals

end Deployments.Record
