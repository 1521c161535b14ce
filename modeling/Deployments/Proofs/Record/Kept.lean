import Deployments.Inventory
import Deployments.Proofs.Reading.Kept

/-!
The numbers that records keep of raw values. A property that every integer and one that every
number has which is read from the parts of a raw value are properties of the integers and the
numbers of the records that are read from it.
-/

namespace Deployments

open Decimal Reading

namespace Record

/-- The numbers of a record, as far as a snapshot keeps them. -/
def Cpu.numbers (r : Cpu) : List Binary64 := [r.sys, r.user, r.wait]

def Mem.numbers (r : Mem) : List Binary64 := [r.kb, r.percent]

def Disk.numbers (r : Disk) : List Binary64 := [r.inodePercent, r.percent]

def Vitals.numbers (r : Vitals) : List Binary64 :=
  r.cpu.numbers ++ r.mem.numbers ++ r.swap.numbers ++ r.load ++ r.systemDisk.numbers ++
    r.ephemeralDisk.numbers ++ r.persistentDisk.numbers

def Process.numbers (r : Process) : List Binary64 := [r.cpu.total, r.mem.percent]

def Machine.numbers (r : Machine) : List Binary64 :=
  r.processes.flatMap (·.numbers) ++ r.vitals.numbers

/-- The integers of a process that a snapshot keeps as integers. -/
def Process.measures (r : Process) : List Int := r.uptime.secs.toList ++ [r.mem.kb]

/-- The integers of a machine that a snapshot keeps as integers. -/
def Machine.measures (r : Machine) : List Int :=
  r.processes.flatMap (·.measures) ++ r.vitals.uptime.secs.toList

structure Machine.IsGood (whole : Int → Prop) (good : Binary64 → Prop) (r : Machine) : Prop where
  index : ∀ n ∈ r.index, whole n
  measures : ∀ n ∈ r.measures, whole n
  numbers : ∀ x ∈ r.numbers, good x

end Record

namespace Reading

variable {p : Value → Prop} {whole : Int → Prop} {good : Binary64 → Prop}

/-- What is read from values that have a property is good, be it an integer or a number, and so is
what stands for blanks. -/
structure Admits (p : Value → Prop) (whole : Int → Prop) (good : Binary64 → Prop) : Prop where
  character : ∀ s, p (.text s)
  byte : ∀ n : Nat, n < 256 → p (.int n)
  emptyList : p (.list [])
  emptyDict : p (.dict [])
  integer : Keeps p integer whole
  number : Keeps p number good

namespace Admits

variable (admits : Admits p whole good)

include admits

theorem all_text (s : Text) : (Value.text s).All p :=
  Value.all_of_not_isCollection rfl (admits.character s)

theorem all_byte {n : Nat} (small : n < 256) : (Value.int n).All p :=
  Value.all_of_not_isCollection rfl (admits.byte n small)

theorem all_emptyList : (Value.list []).All p :=
  Value.all_list admits.emptyList (List.forall_mem_nil _)

theorem all_emptyDict : (Value.dict []).All p :=
  Value.all_dict admits.emptyDict (List.forall_mem_nil _)

theorem whole_zero : whole 0 := admits.integer (.int 0) 0 (admits.all_byte (by decide)) rfl

theorem good_noNumber : good Record.noNumber :=
  admits.number (.int 0) _ (admits.all_byte (by decide)) rfl

theorem blankAsZero {v : Value} (all : v.All p) : (blankAsZero v).All p := by
  have zero : (Value.int 0).All p := admits.all_byte (n := 0) (by decide)
  unfold Reading.blankAsZero
  split
  next => exact zero
  next =>
    split
    next => exact zero
    next => exact all
  next => exact all

theorem vital : Keeps p vital good :=
  fun _ x all done => admits.number _ x (admits.blankAsZero all) done

theorem vitalField (key : Text) : (Record.vitalField key).Keeps p good :=
  FieldReader.keeps_optional admits.vital admits.good_noNumber

theorem all_items {v : Value} (all : v.All p) {items : List Value} (found : v.items? = some items) :
    ∀ item ∈ items, item.All p := by
  cases v with
  | text s =>
    cases found
    intro item member
    obtain ⟨c, _, rfl⟩ := List.mem_map.mp member
    exact admits.all_text _
  | bytes bs =>
    cases found
    intro item member
    obtain ⟨byte, _, rfl⟩ := List.mem_map.mp member
    exact admits.all_byte byte.toNat_lt
  | list items =>
    cases found
    exact all.list
  | tuple items =>
    cases found
    exact all.tuple
  | set items =>
    cases found
    exact all.set
  | dict entries =>
    cases found
    intro item member
    obtain ⟨entry, inside, rfl⟩ := List.mem_map.mp member
    exact all.key entry inside
  | null | bool | int | float | date | moment | again => cases found

end Admits

end Reading

namespace Record

variable {p : Value → Prop} {whole : Int → Prop} {good : Binary64 → Prop}

section Vitals

variable (admits : Admits p whole good)

include admits

theorem Uptime.keeps_read : Keeps p Uptime.read fun r => ∀ n ∈ r.secs, whole n := by
  refine .record fun entries r all done => ?_
  simp only [Checked.eq_ok_iff_exists (a := r), Checked.exists_map_iff] at done
  obtain ⟨_, secs, rfl⟩ := done
  exact FieldReader.good_of_optional admits.integer.optional (by simp) all secs

omit admits in
theorem Uptime.whole_absent : ∀ n ∈ absent.secs, whole n := by
  simp [absent]

theorem Cpu.keeps_read : Keeps p Cpu.read fun r => ∀ x ∈ r.numbers, good x := by
  refine .record fun entries r all done => ?_
  simp only [Checked.eq_ok_iff_exists (a := r), Checked.exists_seq_iff,
    Checked.exists_map_iff] at done
  obtain ⟨_, sys, _, user, _, wait, rfl⟩ := done
  simpa [numbers] using ⟨(admits.vitalField _).get all sys, (admits.vitalField _).get all user,
    (admits.vitalField _).get all wait⟩

theorem Mem.keeps_read : Keeps p Mem.read fun r => ∀ x ∈ r.numbers, good x := by
  refine .record fun entries r all done => ?_
  simp only [Checked.eq_ok_iff_exists (a := r), Checked.exists_seq_iff,
    Checked.exists_map_iff] at done
  obtain ⟨_, kb, _, percent, rfl⟩ := done
  simpa [numbers] using ⟨(admits.vitalField _).get all kb, (admits.vitalField _).get all percent⟩

theorem Disk.keeps_read : Keeps p Disk.read fun r => ∀ x ∈ r.numbers, good x := by
  refine .record fun entries r all done => ?_
  simp only [Checked.eq_ok_iff_exists (a := r), Checked.exists_seq_iff,
    Checked.exists_map_iff] at done
  obtain ⟨_, inode, _, percent, rfl⟩ := done
  simpa [numbers] using
    ⟨(admits.vitalField _).get all inode, (admits.vitalField _).get all percent⟩

theorem Cpu.good_absent : ∀ x ∈ absent.numbers, good x := by
  simp [absent, numbers, admits.good_noNumber]

theorem Mem.good_absent : ∀ x ∈ absent.numbers, good x := by
  simp [absent, numbers, admits.good_noNumber]

theorem Disk.good_absent : ∀ x ∈ absent.numbers, good x := by
  simp [absent, numbers, admits.good_noNumber]

namespace Disks

omit admits in
theorem mem_of_mem_insert (disks : Disks) (new entry : Text × Disk)
    (member : entry ∈ insert disks new.1 new.2) : entry = new ∨ entry ∈ disks := by
  induction disks with
  | nil => exact .inl (List.mem_singleton.mp member)
  | cons first rest ih =>
    rw [insert] at member
    split at member
    · rcases List.mem_cons.mp member with same | later
      · exact .inl same
      · exact .inr (List.mem_cons_of_mem _ later)
    · rcases List.mem_cons.mp member with same | later
      · exact .inr (same ▸ List.mem_cons_self)
      · exact (ih later).imp_right (List.mem_cons_of_mem _)

theorem good_readEntries {entries : Entries} {disks : Disks}
    (all : ∀ entry ∈ entries, entry.2.All p) (done : readEntries entries = .ok disks) :
    ∀ entry ∈ disks, ∀ x ∈ entry.2.numbers, good x := by
  induction entries generalizing disks with
  | nil =>
    cases done
    nofun
  | cons entry rest ih =>
    rw [List.forall_mem_cons] at all
    simp only [readEntries, Checked.eq_ok_iff_exists (a := disks), Checked.exists_seq_iff,
      Checked.exists_map_iff] at done
    obtain ⟨name, _, disk, read, others, later, rfl⟩ := done
    rw [List.forall_mem_cons]
    exact ⟨Disk.keeps_read admits _ disk all.1 (Checked.under_eq_ok_iff.mp read), ih all.2 later⟩

theorem keeps_read : Keeps p read fun disks => ∀ entry ∈ disks, ∀ x ∈ entry.2.numbers, good x := by
  intro v disks all done
  unfold read at done
  split at done
  next =>
    obtain ⟨given, read, rfl⟩ := Checked.map_eq_ok_iff.mp done
    intro entry member
    rcases mem_of_mem_foldl mem_of_mem_insert member with given | none_
    · exact good_readEntries admits all.value read entry given
    · cases none_
  next => cases done

end Disks

namespace Vitals

theorem keeps_readLoad : Keeps p readLoad fun load => ∀ x ∈ load, good x := by
  intro v load all done
  unfold readLoad at done
  split at done
  next =>
    cases done
    nofun
  next =>
    split at done
    next items found =>
      exact admits.vital.forall₂ (admits.all_items all found) (Checked.items_eq_ok_iff.mp done)
    next => cases done

theorem good_diskNamed {r : Vitals} (disks : ∀ entry ∈ r.disk, ∀ x ∈ entry.2.numbers, good x)
    (name : Text) : ∀ x ∈ (r.diskNamed name).numbers, good x := by
  unfold diskNamed Disks.get?
  cases found : r.disk.lookup name with
  | none => exact Disk.good_absent admits
  | some disk =>
    obtain ⟨before, after, same, _⟩ := List.lookup_eq_some_iff.mp found
    exact disks (name, disk) (by simp [same])

theorem good_absent : (∀ n ∈ absent.uptime.secs, whole n) ∧ ∀ x ∈ absent.numbers, good x := by
  refine ⟨Uptime.whole_absent, ?_⟩
  have named := good_diskNamed admits (r := absent) (List.forall_mem_nil _)
  simp only [numbers, List.forall_mem_append]
  exact ⟨⟨⟨⟨⟨⟨Cpu.good_absent admits, Mem.good_absent admits⟩, Mem.good_absent admits⟩,
    List.forall_mem_nil _⟩, named _⟩, named _⟩, named _⟩

theorem keeps_read : Keeps p read fun r =>
    (∀ n ∈ r.uptime.secs, whole n) ∧ ∀ x ∈ r.numbers, good x := by
  refine .record fun entries r all done => ?_
  simp only [Checked.eq_ok_iff_exists (a := r), Checked.exists_seq_iff,
    Checked.exists_map_iff] at done
  obtain ⟨c, cpu, m, mem, s, swap, u, uptime, l, load, d, disk, rfl⟩ := done
  have cpu := FieldReader.good_of_optional (Cpu.keeps_read admits) (Cpu.good_absent admits) all cpu
  have mem := FieldReader.good_of_optional (Mem.keeps_read admits) (Mem.good_absent admits) all mem
  have swap :=
    FieldReader.good_of_optional (Mem.keeps_read admits) (Mem.good_absent admits) all swap
  have uptime :=
    FieldReader.good_of_optional (Uptime.keeps_read admits) Uptime.whole_absent all uptime
  have load :=
    FieldReader.good_of_optional (keeps_readLoad admits) (List.forall_mem_nil _) all load
  have disk :=
    FieldReader.good_of_optional (Disks.keeps_read admits) (List.forall_mem_nil _) all disk
  have named := good_diskNamed admits (r := ⟨c, m, s, u, l, d⟩) disk
  refine ⟨uptime, ?_⟩
  simp only [numbers, List.forall_mem_append]
  exact ⟨⟨⟨⟨⟨⟨cpu, mem⟩, swap⟩, load⟩, named _⟩, named _⟩, named _⟩

end Vitals

theorem ProcessCpu.keeps_read : Keeps p ProcessCpu.read fun r => good r.total := by
  refine .record fun entries r all done => ?_
  simp only [Checked.eq_ok_iff_exists (a := r), Checked.exists_map_iff] at done
  obtain ⟨_, total, rfl⟩ := done
  exact (admits.vitalField _).get all total

theorem ProcessMem.keeps_read : Keeps p ProcessMem.read fun r => whole r.kb ∧ good r.percent := by
  have integer : Keeps p (fun v => integer (blankAsZero v)) whole :=
    fun v n all => admits.integer _ n (admits.blankAsZero all)
  refine .record fun entries r all done => ?_
  simp only [Checked.eq_ok_iff_exists (a := r), Checked.exists_seq_iff,
    Checked.exists_map_iff] at done
  obtain ⟨_, kb, _, percent, rfl⟩ := done
  exact ⟨FieldReader.good_of_optional integer admits.whole_zero all kb,
    (admits.vitalField _).get all percent⟩

theorem Process.keeps_read : Keeps p Process.read fun r =>
    (∀ n ∈ r.measures, whole n) ∧ ∀ x ∈ r.numbers, good x := by
  refine .record fun entries r all done => ?_
  simp only [Checked.eq_ok_iff_exists (a := r), Checked.exists_seq_iff,
    Checked.exists_map_iff] at done
  obtain ⟨_, name, _, state, _, uptime, _, cpu, _, mem, rfl⟩ := done
  have uptime :=
    FieldReader.good_of_optional (Uptime.keeps_read admits) Uptime.whole_absent all uptime
  have total :=
    FieldReader.good_of_optional (ProcessCpu.keeps_read admits) admits.good_noNumber all cpu
  have mem := FieldReader.good_of_optional (ProcessMem.keeps_read admits)
    ⟨admits.whole_zero, admits.good_noNumber⟩ all mem
  simp only [measures, numbers, List.forall_mem_append, List.forall_mem_cons, Option.mem_toList]
  exact ⟨⟨uptime, mem.1, List.forall_mem_nil _⟩, total, mem.2, List.forall_mem_nil _⟩

theorem Machine.keeps_read : Keeps p Machine.read (·.IsGood whole good) := by
  refine .record fun entries r all done => ?_
  simp only [Checked.eq_ok_iff_exists (a := r), Checked.exists_seq_iff,
    Checked.exists_map_iff] at done
  obtain ⟨_, _, _, _, _, _, _, index, _, _, _, _, _, _, _, _, _, _, _, _, _, _, _, _, _, vitals,
    _, processes, rfl⟩ := done
  have index := FieldReader.good_of_optional admits.integer.optional (by simp) all index
  have vitals := FieldReader.good_of_optional
    ((Vitals.keeps_read admits).nullAs admits.all_emptyDict) (Vitals.good_absent admits) all vitals
  have processes := FieldReader.good_of_optional
    ((Process.keeps_read admits).list.nullAs admits.all_emptyList) (List.forall_mem_nil _) all
    processes
  refine ⟨index, ?_, ?_⟩
  · intro n member
    rcases List.mem_append.mp member with member | member
    · obtain ⟨process, inside, member⟩ := List.mem_flatMap.mp member
      exact (processes process inside).1 n member
    · exact vitals.1 n (Option.mem_toList.mp member)
  · intro x member
    rcases List.mem_append.mp member with member | member
    · obtain ⟨process, inside, member⟩ := List.mem_flatMap.mp member
      exact (processes process inside).2 x member
    · exact vitals.2 x member

end Vitals

end Record

end Deployments
