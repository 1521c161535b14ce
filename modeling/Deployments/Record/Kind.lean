import Deployments.Config
import Deployments.Inventory

/-!
All kinds of records in one place: the name of each, what its records are, how a raw value is read
as one, and how a record is written as a raw value.
-/

namespace Deployments

open Reading

inductive RecordKind where
  | errand | release | stemcell
  | uptime | cpu | mem | disk | vitals
  | processCpu | processMem | process | machine
  | entry | inventory
  | director | filters | logging | config
  deriving DecidableEq, Repr, Inhabited

namespace RecordKind

def all : List RecordKind :=
  [errand, release, stemcell, uptime, cpu, mem, disk, vitals, processCpu, processMem, process,
   machine, entry, inventory, director, filters, logging, config]

def title : RecordKind → String
  | errand => Record.Errand.title
  | release => Record.Release.title
  | stemcell => Record.Stemcell.title
  | uptime => Record.Uptime.title
  | cpu => Record.Cpu.title
  | mem => Record.Mem.title
  | disk => Record.Disk.title
  | vitals => Record.Vitals.title
  | processCpu => Record.ProcessCpu.title
  | processMem => Record.ProcessMem.title
  | process => Record.Process.title
  | machine => Record.Machine.title
  | entry => Inventory.Entry.title
  | inventory => Inventory.title
  | director => Config.Director.title
  | filters => Config.Filters.title
  | logging => Config.Logging.title
  | config => Config.title

def ofTitle? (name : String) : Option RecordKind := all.find? fun kind => kind.title == name

abbrev Carrier : RecordKind → Type
  | errand => Record.Errand
  | release => Record.Release
  | stemcell => Record.Stemcell
  | uptime => Record.Uptime
  | cpu => Record.Cpu
  | mem => Record.Mem
  | disk => Record.Disk
  | vitals => Record.Vitals
  | processCpu => Record.ProcessCpu
  | processMem => Record.ProcessMem
  | process => Record.Process
  | machine => Record.Machine
  | entry => Inventory.Entry
  | inventory => Inventory
  | director => Config.Director
  | filters => Config.Filters
  | logging => Config.Logging
  | config => Config

def read : (kind : RecordKind) → Value → Checked kind.Carrier
  | errand => Record.Errand.read
  | release => Record.Release.read
  | stemcell => Record.Stemcell.read
  | uptime => Record.Uptime.read
  | cpu => Record.Cpu.read
  | mem => Record.Mem.read
  | disk => Record.Disk.read
  | vitals => Record.Vitals.read
  | processCpu => Record.ProcessCpu.read
  | processMem => Record.ProcessMem.read
  | process => Record.Process.read
  | machine => Record.Machine.read
  | entry => Inventory.Entry.read
  | inventory => Inventory.read
  | director => Config.Director.read
  | filters => Config.Filters.read
  | logging => Config.Logging.read
  | config => Config.read

def toValue : (kind : RecordKind) → kind.Carrier → Value
  | errand => Record.Errand.toValue
  | release => Record.Release.toValue
  | stemcell => Record.Stemcell.toValue
  | uptime => Record.Uptime.toValue
  | cpu => Record.Cpu.toValue
  | mem => Record.Mem.toValue
  | disk => Record.Disk.toValue
  | vitals => Record.Vitals.toValue
  | processCpu => Record.ProcessCpu.toValue
  | processMem => Record.ProcessMem.toValue
  | process => Record.Process.toValue
  | machine => Record.Machine.toValue
  | entry => Inventory.Entry.toValue
  | inventory => Inventory.toValue
  | director => Config.Director.toValue
  | filters => Config.Filters.toValue
  | logging => Config.Logging.toValue
  | config => Config.toValue

/-- Whether a record is running, for the kinds that can be. -/
def isRunning? : (kind : RecordKind) → kind.Carrier → Option Bool
  | machine, r => some (Record.Machine.isRunning r)
  | process, r => some (Record.Process.isRunning r)
  | _, _ => none

/-- The three disks that vitals single out, for the kind that has them. -/
def disks? : (kind : RecordKind) → kind.Carrier → Option (List Record.Disk)
  | vitals, r =>
    some [Record.Vitals.systemDisk r, Record.Vitals.ephemeralDisk r,
      Record.Vitals.persistentDisk r]
  | _, _ => none

theorem mem_all (kind : RecordKind) : kind ∈ all := by
  cases kind <;> simp [all]

end RecordKind

end Deployments
