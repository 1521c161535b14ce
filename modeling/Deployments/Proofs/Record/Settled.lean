import Deployments.Proofs.Reading.Settled
import Deployments.Record.Kind

/-!
Records are read again from what they are written as, under the names of their fields. Of a record
that has been read the names of its disks are distinct, its selected names have no spaces around
them, and its level is in upper case; reading keeps all of these.
-/

namespace Deployments

open Decimal Reading

namespace Record

theorem settles_vitalField (key : Text) : (vitalField key).Settles .float :=
  ⟨settles_vital, fun _ _ => rfl⟩

theorem Machine.settles_textField (key : Text) : (textField key).Settles .text :=
  ⟨fun _ _ _ => rfl, fun _ _ => rfl⟩

theorem Machine.settles_listField (key : Text) {α : Type} {read : Value → Checked α}
    {write : α → Value} (settles : Settles read write) :
    (listField key read).Settles fun items => .list (items.map write) := by
  refine FieldReader.settles_optional (fun v items done => ?_) rfl
  exact settles.list _ items done

theorem Errand.settles : Settles read toValue := by
  refine .record fun entries r done => ⟨_, rfl, ?_⟩
  simp only [Checked.eq_ok_iff_exists (a := r), Checked.exists_map_iff] at done ⊢
  obtain ⟨_, name, rfl⟩ := done
  exact ⟨_, (FieldReader.settles_required settles_text).get name rfl, rfl⟩

theorem Release.settles : Settles read toValue := by
  refine .record fun entries r done => ⟨_, rfl, ?_⟩
  simp only [Checked.eq_ok_iff_exists (a := r), Checked.exists_seq_iff,
    Checked.exists_map_iff] at done ⊢
  obtain ⟨_, name, _, version, rfl⟩ := done
  exact ⟨_, (FieldReader.settles_required settles_text).get name rfl, _,
    (FieldReader.settles_required settles_versionText).get version rfl, rfl⟩

/-- The name of the operating system is written under its other key. -/
theorem Stemcell.settles : Settles read toValue := by
  refine .record fun entries r done => ⟨_, rfl, ?_⟩
  simp only [Checked.eq_ok_iff_exists (a := r), Checked.exists_seq_iff,
    Checked.exists_map_iff] at done ⊢
  obtain ⟨_, name, _, version, _, osName, rfl⟩ := done
  have osField : osField.Settles .text := ⟨settles_text, fun _ _ => rfl⟩
  exact ⟨_, (FieldReader.settles_required settles_text).get name rfl, _,
    (FieldReader.settles_required settles_versionText).get version rfl, _,
    osField.get osName rfl, rfl⟩

theorem Uptime.settles : Settles read toValue := by
  refine .record fun entries r done => ⟨_, rfl, ?_⟩
  simp only [Checked.eq_ok_iff_exists (a := r), Checked.exists_map_iff] at done ⊢
  obtain ⟨_, secs, rfl⟩ := done
  exact ⟨_, (FieldReader.settles_optional settles_index rfl).get secs rfl, rfl⟩

theorem Cpu.settles : Settles read toValue := by
  refine .record fun entries r done => ⟨_, rfl, ?_⟩
  simp only [Checked.eq_ok_iff_exists (a := r), Checked.exists_seq_iff,
    Checked.exists_map_iff] at done ⊢
  obtain ⟨_, sys, _, user, _, wait, rfl⟩ := done
  exact ⟨_, (settles_vitalField _).get sys rfl, _, (settles_vitalField _).get user rfl, _,
    (settles_vitalField _).get wait rfl, rfl⟩

theorem Mem.settles : Settles read toValue := by
  refine .record fun entries r done => ⟨_, rfl, ?_⟩
  simp only [Checked.eq_ok_iff_exists (a := r), Checked.exists_seq_iff,
    Checked.exists_map_iff] at done ⊢
  obtain ⟨_, kb, _, percent, rfl⟩ := done
  exact ⟨_, (settles_vitalField _).get kb rfl, _, (settles_vitalField _).get percent rfl, rfl⟩

theorem Disk.settles : Settles read toValue := by
  refine .record fun entries r done => ⟨_, rfl, ?_⟩
  simp only [Checked.eq_ok_iff_exists (a := r), Checked.exists_seq_iff,
    Checked.exists_map_iff] at done ⊢
  obtain ⟨_, inode, _, percent, rfl⟩ := done
  exact ⟨_, (settles_vitalField _).get inode rfl, _, (settles_vitalField _).get percent rfl, rfl⟩

/-! ### Disks under their names -/

namespace Disks

def names (disks : Disks) : List Text := disks.map Prod.fst

def toValue (disks : Disks) : Value := .record (disks.map fun entry => (entry.1, entry.2.toValue))

theorem mem_names_insert (disks : Disks) (name other : Text) (disk : Disk) :
    other ∈ (insert disks name disk).names ↔ other = name ∨ other ∈ disks.names := by
  induction disks with
  | nil => simp [insert, names]
  | cons first rest ih =>
    rw [insert]
    split
    next same => simp [names, same]
    next =>
      simp only [names, List.map_cons, List.mem_cons] at ih ⊢
      rw [ih, or_left_comm]

theorem nodup_insert {disks : Disks} (distinct : disks.names.Nodup) (name : Text) (disk : Disk) :
    (insert disks name disk).names.Nodup := by
  induction disks with
  | nil => simp [insert, names]
  | cons first rest ih =>
    obtain ⟨new, others⟩ := List.nodup_cons.mp distinct
    rw [insert]
    split
    next same => exact List.nodup_cons.mpr ⟨same ▸ new, others⟩
    next other =>
      refine List.nodup_cons.mpr ⟨fun member => ?_, ih others⟩
      rcases (mem_names_insert rest name first.1 disk).mp member with same | later
      · exact other same
      · exact new later

theorem insert_of_not_mem {disks : Disks} {name : Text} (new : name ∉ disks.names) (disk : Disk) :
    insert disks name disk = disks ++ [(name, disk)] := by
  induction disks with
  | nil => rfl
  | cons first rest ih =>
    simp only [names, List.map_cons, List.mem_cons, not_or] at new
    obtain ⟨other, later⟩ := new
    rw [insert, if_neg (Ne.symm other), ih later, List.cons_append]

/-- The disks that entries give, of which the later one counts for each name. -/
def gather (entries disks : Disks) : Disks :=
  entries.foldl (fun disks entry => insert disks entry.1 entry.2) disks

theorem nodup_gather (entries : Disks) {disks : Disks} (distinct : disks.names.Nodup) :
    (gather entries disks).names.Nodup := by
  induction entries generalizing disks with
  | nil => exact distinct
  | cons entry rest ih => exact ih (nodup_insert distinct entry.1 entry.2)

theorem gather_of_nodup {entries disks : Disks} (distinct : (disks ++ entries).names.Nodup) :
    gather entries disks = disks ++ entries := by
  induction entries generalizing disks with
  | nil => simp [gather]
  | cons entry rest ih =>
    have new : entry.1 ∉ disks.names := by
      have apart := distinct
      simp only [names, List.map_append, List.map_cons, List.nodup_append] at apart
      exact fun member => apart.2.2 _ member _ List.mem_cons_self rfl
    have step : gather (entry :: rest) disks = gather rest (disks ++ [entry]) := by
      rw [gather, List.foldl_cons, insert_of_not_mem new, ← gather]
    rw [step, ih (by simpa using distinct), List.append_assoc, List.singleton_append]

theorem readEntries_toValue (disks : Disks) :
    readEntries (disks.map fun entry => (.text entry.1, entry.2.toValue)) = .ok disks := by
  induction disks with
  | nil => rfl
  | cons entry rest ih =>
    rw [List.map_cons, readEntries, ih]
    rfl

theorem settles : Settles read toValue := by
  intro v disks done
  unfold read at done
  split at done
  next entries =>
    obtain ⟨given, _, gathered⟩ := Checked.map_eq_ok_iff.mp done
    have distinct : disks.names.Nodup := by
      rw [← gathered]
      exact nodup_gather given List.nodup_nil
    have written : disks.toValue =
        .dict (disks.map fun entry => (.text entry.1, entry.2.toValue)) := by
      simp [toValue, Value.record]
    rw [written, read]
    refine Checked.map_eq_ok_iff.mpr ⟨disks, readEntries_toValue disks, ?_⟩
    exact gather_of_nodup distinct
  next => cases done

end Disks

/-! ### Machines and their processes -/

theorem Vitals.settles_load : Settles readLoad fun load => .list (load.map .float) := by
  intro v load done
  have all : ∃ raw, List.Forall₂ (fun v x => vital v = .ok x) raw load := by
    unfold readLoad at done
    split at done
    next =>
      cases done
      exact ⟨[], .nil⟩
    next =>
      split at done
      next items _ => exact ⟨items, Checked.items_eq_ok_iff.mp done⟩
      next => cases done
  obtain ⟨raw, all⟩ := all
  exact settles_vital.items all 0

theorem Vitals.settles : Settles read toValue := by
  refine .record fun entries r done => ⟨_, rfl, ?_⟩
  simp only [Checked.eq_ok_iff_exists (a := r), Checked.exists_seq_iff,
    Checked.exists_map_iff] at done ⊢
  obtain ⟨_, cpu, _, mem, _, swap, _, uptime, _, load, _, disk, rfl⟩ := done
  exact ⟨_, (FieldReader.settles_optional Cpu.settles rfl).get cpu rfl, _,
    (FieldReader.settles_optional Mem.settles rfl).get mem rfl, _,
    (FieldReader.settles_optional Mem.settles rfl).get swap rfl, _,
    (FieldReader.settles_optional Uptime.settles rfl).get uptime rfl, _,
    (FieldReader.settles_optional settles_load rfl).get load rfl, _,
    (FieldReader.settles_optional Disks.settles rfl).get disk rfl, rfl⟩

theorem ProcessCpu.settles : Settles read toValue := by
  refine .record fun entries r done => ⟨_, rfl, ?_⟩
  simp only [Checked.eq_ok_iff_exists (a := r), Checked.exists_map_iff] at done ⊢
  obtain ⟨_, total, rfl⟩ := done
  exact ⟨_, (settles_vitalField _).get total rfl, rfl⟩

theorem ProcessMem.settles : Settles read toValue := by
  refine .record fun entries r done => ⟨_, rfl, ?_⟩
  simp only [Checked.eq_ok_iff_exists (a := r), Checked.exists_seq_iff,
    Checked.exists_map_iff] at done ⊢
  obtain ⟨_, kb, _, percent, rfl⟩ := done
  exact ⟨_, (FieldReader.settles_optional settles_measure rfl).get kb rfl, _,
    (settles_vitalField _).get percent rfl, rfl⟩

theorem Process.settles : Settles read toValue := by
  refine .record fun entries r done => ⟨_, rfl, ?_⟩
  simp only [Checked.eq_ok_iff_exists (a := r), Checked.exists_seq_iff,
    Checked.exists_map_iff] at done ⊢
  obtain ⟨_, name, _, state, _, uptime, _, cpu, _, mem, rfl⟩ := done
  exact ⟨_, (FieldReader.settles_required settles_text).get name rfl, _,
    (FieldReader.settles_optional settles_text rfl).get state rfl, _,
    (FieldReader.settles_optional Uptime.settles rfl).get uptime rfl, _,
    (FieldReader.settles_optional ProcessCpu.settles rfl).get cpu rfl, _,
    (FieldReader.settles_optional ProcessMem.settles rfl).get mem rfl, rfl⟩

/-- The vitals that stand for null are not written as null. -/
theorem Machine.settles_vitals :
    Settles (fun v => Vitals.read (nullAs (.dict []) v)) Vitals.toValue :=
  fun _ r done => Vitals.settles _ r done

/-- The state of the job and the identity of the machine are written under their other keys. -/
theorem Machine.settles : Settles read toValue := by
  refine .record fun entries r done => ⟨_, rfl, ?_⟩
  simp only [Checked.eq_ok_iff_exists (a := r), Checked.exists_seq_iff,
    Checked.exists_map_iff] at done ⊢
  obtain ⟨_, agentId, _, jobName, _, id, _, index, _, jobState, _, bootstrap, _, ips, _, az, _,
    vmId, _, vmType, _, resourcePool, _, paused, _, vitals, _, processes, rfl⟩ := done
  have stateField : ((textField "job_state").orUnder "process_state").Settles .text :=
    ⟨fun _ _ _ => rfl, fun _ _ => rfl⟩
  have vmField : ((textField "vm_cid").orUnder "vm_id").Settles .text :=
    ⟨fun _ _ _ => rfl, fun _ _ => rfl⟩
  exact ⟨_, (settles_textField _).get agentId rfl, _, (settles_textField _).get jobName rfl, _,
    (settles_textField _).get id rfl, _,
    (FieldReader.settles_optional settles_index rfl).get index rfl, _,
    stateField.get jobState rfl, _,
    (FieldReader.settles_optional settles_boolean rfl).get bootstrap rfl, _,
    (settles_listField _ settles_text).get ips rfl, _, (settles_textField _).get az rfl, _,
    vmField.get vmId rfl, _, (settles_textField _).get vmType rfl, _,
    (settles_textField _).get resourcePool rfl, _,
    (FieldReader.settles_optional settles_boolean rfl).get paused rfl, _,
    (FieldReader.settles_optional settles_vitals rfl).get vitals rfl, _,
    (settles_listField _ Process.settles).get processes rfl, rfl⟩

end Record

/-! ### Inventories -/

namespace Inventory

theorem Entry.settles : Settles read toValue := by
  refine .record fun entries r done => ⟨_, rfl, ?_⟩
  simp only [Checked.eq_ok_iff_exists (a := r), Checked.exists_seq_iff,
    Checked.exists_map_iff] at done ⊢
  obtain ⟨_, name, _, errands, _, instances, _, releases, _, stemcells, rfl⟩ := done
  exact ⟨_, (FieldReader.settles_required settles_text).get name rfl, _,
    (FieldReader.settles_optional Record.Errand.settles.list rfl).get errands rfl, _,
    (FieldReader.settles_optional Record.Machine.settles.list rfl).get instances rfl, _,
    (FieldReader.settles_optional Record.Release.settles.list rfl).get releases rfl, _,
    (FieldReader.settles_optional Record.Stemcell.settles.list rfl).get stemcells rfl, rfl⟩

theorem settles : Settles read toValue := by
  refine .record fun entries r done => ⟨_, rfl, ?_⟩
  simp only [readFields, Checked.eq_ok_iff_exists (a := r), Checked.exists_map_iff] at done ⊢
  obtain ⟨_, deployments, rfl⟩ := done
  exact ⟨_, (FieldReader.settles_optional Entry.settles.list rfl).get deployments rfl, rfl⟩

end Inventory

/-! ### Configurations -/

namespace Config

theorem Director.settles : Settles read toValue := by
  refine .record fun entries r done => ⟨_, rfl, ?_⟩
  simp only [Checked.eq_ok_iff_exists (a := r), Checked.exists_map_iff] at done ⊢
  obtain ⟨_, path, rfl⟩ := done
  exact ⟨_, (FieldReader.settles_required settles_text).get path rfl, rfl⟩

theorem Filters.stripped_stripped (names : List Text) :
    stripped (stripped names) = stripped names := by
  have kept : ∀ name ∈ stripped names, Text.strip name = name := by
    intro name member
    obtain ⟨given, _, rfl⟩ := List.mem_map.mp (List.mem_filter.mp member).1
    exact Text.strip_strip given
  rw [stripped, List.map_congr_left kept, List.map_id', stripped, List.filter_filter]
  simp

theorem Filters.settles_names :
    Settles (fun v => (list text v).map stripped) fun names => .list (names.map .text) := by
  intro v names done
  obtain ⟨given, _, rfl⟩ := Checked.map_eq_ok_iff.mp done
  have again : list text (.list ((stripped given).map .text)) = .ok (stripped given) :=
    settles_text.list (.list ((stripped given).map .text)) _ (Checked.items_eq_ok_iff.mpr
      (List.forall₂_map_left_iff.mpr (List.forall₂_same.mpr fun _ _ => rfl)))
  exact Checked.map_eq_ok_iff.mpr ⟨_, again, stripped_stripped given⟩

theorem Filters.settles : Settles read toValue := by
  refine .record fun entries r done => ⟨_, rfl, ?_⟩
  simp only [Checked.eq_ok_iff_exists (a := r), Checked.exists_map_iff] at done ⊢
  obtain ⟨_, names, rfl⟩ := done
  exact ⟨_, (FieldReader.settles_optional settles_names rfl).get names rfl, rfl⟩

theorem Logging.upper_of_mem {level : Text} (known : level ∈ levels) :
    Text.upper level = level := by
  have all : ∀ level ∈ levels, Text.upper level = level := by decide
  exact all level known

theorem Logging.settles_level : Settles readLevel .text := by
  intro v level done
  unfold readLevel Checked.bind at done
  split at done
  next s _ =>
    dsimp only at done
    split at done
    next known =>
      cases done
      have member := List.contains_iff_mem.mp known
      simp [readLevel, text, Checked.bind, upper_of_mem member, member]
    next => cases done
  next => cases done
  next => cases done

theorem Logging.settles : Settles read toValue := by
  refine .record fun entries r done => ⟨_, rfl, ?_⟩
  simp only [Checked.eq_ok_iff_exists (a := r), Checked.exists_map_iff] at done ⊢
  obtain ⟨_, level, rfl⟩ := done
  have stands : readLevel (.text absent.level) = .ok absent.level := by decide
  exact ⟨_, (FieldReader.settles_optional settles_level stands).get level rfl, rfl⟩

theorem settles : Settles read toValue := by
  refine .record fun entries r done => ⟨_, rfl, ?_⟩
  simp only [readFields, Checked.eq_ok_iff_exists (a := r), Checked.exists_seq_iff,
    Checked.exists_map_iff] at done ⊢
  obtain ⟨_, director, _, filters, _, logging, rfl⟩ := done
  have stands : Logging.read (Logging.toValue .absent) = .ok .absent := by decide
  exact ⟨_, (FieldReader.settles_required Director.settles).get director rfl, _,
    (FieldReader.settles_optional Filters.settles rfl).get filters rfl, _,
    (FieldReader.settles_optional Logging.settles stands).get logging rfl, rfl⟩

end Config

/-- A record of any kind that has been read is read again, as the same record, from what it is
written as. -/
theorem RecordKind.read_toValue_of_read (kind : RecordKind) {v : Value} {r : kind.Carrier}
    (done : kind.read v = .ok r) : kind.read (kind.toValue r) = .ok r := by
  cases kind with
  | errand => exact Record.Errand.settles v r done
  | release => exact Record.Release.settles v r done
  | stemcell => exact Record.Stemcell.settles v r done
  | uptime => exact Record.Uptime.settles v r done
  | cpu => exact Record.Cpu.settles v r done
  | mem => exact Record.Mem.settles v r done
  | disk => exact Record.Disk.settles v r done
  | vitals => exact Record.Vitals.settles v r done
  | processCpu => exact Record.ProcessCpu.settles v r done
  | processMem => exact Record.ProcessMem.settles v r done
  | process => exact Record.Process.settles v r done
  | machine => exact Record.Machine.settles v r done
  | entry => exact Inventory.Entry.settles v r done
  | inventory => exact Inventory.settles v r done
  | director => exact Config.Director.settles v r done
  | filters => exact Config.Filters.settles v r done
  | logging => exact Config.Logging.settles v r done
  | config => exact Config.settles v r done

/-- A machine under other keys of its fields, one of whose disks is given twice. -/
def givenMachine : Value :=
  .record [("job_name", .text "router"), ("process_state", .text "running"),
    ("vm_id", .text "vm-1"), ("index", .text "3"), ("ips", .null),
    ("vitals", .record [("cpu", .record [("sys", .null), ("user", .text "")]),
      ("load", .list [.text "", .int 2, .float .nan]),
      ("disk", .dict [(.text "system", .record [("percent", .int 5)]),
        (.bytes [115, 121, 115, 116, 101, 109], .record [("percent", .text "7.5")])])])]

/-- The given machine as it is read. -/
def settledMachine : Record.Machine :=
  { agentId := "", jobName := "router", id := "", index := some 3, jobState := "running"
    bootstrap := false, ips := [], az := "", vmId := "vm-1", vmType := "", resourcePool := ""
    resurrectionPaused := false
    vitals := { Record.Vitals.absent with
      load := [.zero false, .finite false (Nat.pow 2 52) (-51), .nan]
      disk := [("system", ⟨.zero false, .finite false (15 * Nat.pow 2 49) (-50)⟩)] }
    processes := [] }

theorem settledMachine_read_again :
    RecordKind.machine.read givenMachine = .ok settledMachine ∧
      RecordKind.machine.read (RecordKind.machine.toValue settledMachine) = .ok settledMachine := by
  have done : RecordKind.machine.read givenMachine = .ok settledMachine := by decide
  exact ⟨done, RecordKind.read_toValue_of_read .machine done⟩

end Deployments
