import Mathlib.Data.List.Forall2
import Deployments.Director
import Deployments.Proofs.Handle
import Deployments.Proofs.Json.Leaves
import Deployments.Proofs.Record.Kept

/-!
Which entries of an inventory can be fetched, and which snapshots can be printed. Both fail only
for integers with too many digits: those that are indexes of machines keep an entry from being
fetched, and the others keep its snapshot from being printed.
-/

namespace Deployments

open Decimal

namespace Inventory.Entry

/-- The machines that exist. -/
def machines (entry : Entry) : List Record.Machine := entry.instances.filter (·.hasVm)

def indexes (entry : Entry) : List Int := entry.machines.flatMap (·.index.toList)

/-- The integers of an entry that its snapshot keeps as integers. -/
def measures (entry : Entry) : List Int := entry.machines.flatMap (·.measures)

/-- The integers of an entry that are converted to text. -/
def integers (entry : Entry) : List Int := entry.indexes ++ entry.measures

end Inventory.Entry

namespace Snapshot

theorem int_mem_jsonOption_int (n : Int) (x : Option Int) :
    .int n ∈ (jsonOption .int x).leaves ↔ n ∈ x := by
  cases x <;> simp [jsonOption, eq_comm]

theorem int_mem_jsonOption_text (n : Int) (x : Option Text) :
    .int n ∉ (jsonOption .text x).leaves := by
  cases x <;> simp [jsonOption]

theorem Cpu.int_mem_leaves (e : Cpu) (n : Int) : .int n ∉ e.toJson.leaves := by
  simp [toJson]

theorem Mem.int_mem_leaves (e : Mem) (n : Int) : .int n ∉ e.toJson.leaves := by
  simp [toJson]

theorem Disk.int_mem_leaves (e : Disk) (n : Int) : .int n ∉ e.toJson.leaves := by
  simp [toJson]

theorem ProcessMem.int_mem_leaves (e : ProcessMem) (n : Int) :
    .int n ∈ e.toJson.leaves ↔ n = e.kb := by
  simp [toJson]

theorem Process.int_mem_leaves (e : Process) (n : Int) :
    .int n ∈ e.toJson.leaves ↔ n ∈ e.uptime.toList ++ [e.mem.kb] := by
  simp [toJson, int_mem_jsonOption_int, Cpu.int_mem_leaves, ProcessMem.int_mem_leaves]

theorem Vitals.int_mem_leaves (e : Vitals) (n : Int) : .int n ∈ e.toJson.leaves ↔ n ∈ e.uptime := by
  simp [toJson, int_mem_jsonOption_int, Cpu.int_mem_leaves, Mem.int_mem_leaves,
    Disk.int_mem_leaves]

/-- The integers that are printed for an instance. -/
theorem Instance.int_mem_leaves (e : Instance) (n : Int) :
    .int n ∈ e.toJson.leaves ↔
      n ∈ e.processes.flatMap (fun process => process.uptime.toList ++ [process.mem.kb]) ++
        e.vitals.uptime.toList := by
  simp [toJson, int_mem_jsonOption_text, Process.int_mem_leaves, Vitals.int_mem_leaves]

theorem Instance.exists_ofRecord_iff (r : Record.Machine) :
    (∃ e, ofRecord r = .ok e) ↔ ∀ n ∈ r.index, Writable n := by
  rw [ofRecord, Json.exists_map_eq_ok]
  cases r.index with
  | none => simp [indexText]
  | some n =>
    by_cases writable : Writable n
    · simp [indexText, integer?_of_writable writable, writable]
    · simp [indexText, integer?_of_not_writable writable, writable]

theorem Instance.ofRecord_error {r : Record.Machine} {f : Fault} (failed : ofRecord r = .error f) :
    f = .tooManyDigits := by
  rw [ofRecord] at failed
  cases text : indexText r.index with
  | ok index =>
    rw [text] at failed
    cases failed
  | error g =>
    rw [text] at failed
    cases failed
    unfold indexText at text
    split at text
    · cases text
    · split at text <;> cases text
      rfl

theorem Instance.int_mem_ofRecord {r : Record.Machine} {e : Instance} (kept : ofRecord r = .ok e)
    (n : Int) : .int n ∈ e.toJson.leaves ↔ n ∈ r.measures := by
  obtain ⟨index, _, rfl⟩ := map_eq_ok_iff.mp kept
  rw [Instance.int_mem_leaves, Record.Machine.measures, List.flatMap_map]
  rfl

end Snapshot

section Entries

variable {α β : Type}

theorem entriesOf_some (f : α → β) (records : List α) :
    entriesOf (fun r => .ok (some (f r))) records = .ok (records.map f) := by
  induction records with
  | nil => rfl
  | cons r rest ih =>
    rw [entriesOf, ih]
    rfl

theorem Facet.entryOf_eq_none_iff (r : Record.Machine) :
    entryOf .instances r = .ok none ↔ r.hasVm = false := by
  rw [entryOf]
  cases r.hasVm with
  | false => simp
  | true => cases Snapshot.Instance.ofRecord r <;> simp [Except.map]

/-- The machines that exist have an entry each, or one of them has an index that has no text. -/
theorem entriesOf_machines (records : List Record.Machine) :
    (∃ entries, entriesOf (Facet.entryOf .instances) records = .ok entries ∧
      List.Forall₂ (fun r e => Snapshot.Instance.ofRecord r = .ok e)
        (records.filter (·.hasVm)) entries) ∨
    (entriesOf (Facet.entryOf .instances) records = .error .tooManyDigits ∧
      ∃ r ∈ records.filter (·.hasVm), ∃ n ∈ r.index, ¬ Writable n) := by
  cases mapped : entriesOf (Facet.entryOf .instances) records with
  | ok entries =>
    have each := (entriesOf_eq_ok_iff Facet.entryOf_eq_none_iff).mp mapped
    refine .inl ⟨entries, rfl, each.imp ?_⟩
    intro r e entry
    rw [Facet.entryOf] at entry
    split at entry
    · obtain ⟨_, kept, same⟩ := map_eq_ok_iff.mp entry
      rwa [Option.some.inj same] at kept
    · cases entry
  | error f =>
    obtain ⟨before, r, after, rfl, -, bad⟩ := exists_of_entriesOf_error mapped
    rw [Facet.entryOf] at bad
    split at bad
    next exists_ =>
      cases kept : Snapshot.Instance.ofRecord r with
      | ok e =>
        rw [kept] at bad
        cases bad
      | error g =>
        rw [kept] at bad
        cases bad
        have long : ¬ ∀ n ∈ r.index, Writable n := by
          rw [← Snapshot.Instance.exists_ofRecord_iff, kept]
          rintro ⟨e, same⟩
          cases same
        push Not at long
        exact .inr ⟨congrArg _ (Snapshot.Instance.ofRecord_error kept), r, by simp [exists_], long⟩
    next => cases bad

end Entries

namespace Inventory.Entry

/-- The snapshot of an entry whose instances are given. -/
def snapshot (entry : Entry) (instances : List Snapshot.Instance) : Snapshot Facet.Entry :=
  ⟨entry.name, entry.errands.map .ofRecord, instances, entry.releases.map .ofRecord,
    entry.stemcells.map .ofRecord⟩

theorem fetch_handle (entry : Entry) :
    entry.handle.fetch Facet.entryOf =
      match entriesOf (Facet.entryOf .instances) entry.instances with
      | .ok instances => .ok (entry.snapshot instances)
      | .error f => .error (.fault f) := by
  have errands : entriesOf (Facet.entryOf .errands) entry.errands = .ok _ := entriesOf_some _ _
  have releases : entriesOf (Facet.entryOf .releases) entry.releases = .ok _ := entriesOf_some _ _
  have stemcells : entriesOf (Facet.entryOf .stemcells) entry.stemcells = .ok _ :=
    entriesOf_some _ _
  simp only [Handle.fetch, Handle.run, Facet.all, Handle.readAll, Handle.read, handle, records,
    errands, releases, stemcells]
  cases entriesOf (Facet.entryOf .instances) entry.instances <;> rfl

theorem int_mem_snapshot (entry : Entry) {instances : List Snapshot.Instance}
    (all : List.Forall₂ (fun r e => Snapshot.Instance.ofRecord r = .ok e) entry.machines instances)
    (n : Int) : .int n ∈ (entry.snapshot instances).toJson.leaves ↔ n ∈ entry.measures := by
  have kept : (∃ e ∈ instances, .int n ∈ e.toJson.leaves) ↔
      ∃ r ∈ entry.machines, n ∈ r.measures := by
    generalize entry.machines = machines at all
    induction all with
    | nil => simp
    | cons head _ ih =>
      simp only [List.exists_mem_cons_iff, Snapshot.Instance.int_mem_ofRecord head, ih]
  rw [measures, List.mem_flatMap, ← kept]
  simp [Snapshot.toJson, Facet.all, snapshot, Snapshot.get, Facet.entryJson, Snapshot.Errand.toJson,
    Snapshot.Release.toJson, Snapshot.Stemcell.toJson]

theorem exists_ofRecord_of_mem {machines : List Record.Machine}
    {instances : List Snapshot.Instance}
    (all : List.Forall₂ (fun r e => Snapshot.Instance.ofRecord r = .ok e) machines instances)
    {r : Record.Machine} (member : r ∈ machines) : ∃ e, Snapshot.Instance.ofRecord r = .ok e := by
  induction all with
  | nil => cases member
  | cons head _ ih =>
    rcases List.mem_cons.mp member with rfl | later
    · exact ⟨_, head⟩
    · exact ih later

/-- An entry is fetched exactly if the indexes of its machines have a text each, and then the
integers in its snapshot are the others. -/
theorem fetch_cases (entry : Entry) :
    ((∀ n ∈ entry.indexes, Writable n) ∧ ∃ snapshot,
      entry.handle.fetch Facet.entryOf = .ok snapshot ∧ snapshot.name = entry.name ∧
        (snapshot.toJson.IsWritable ↔ ∀ n ∈ entry.measures, Writable n)) ∨
    ((∃ n ∈ entry.indexes, ¬ Writable n) ∧
      entry.handle.fetch Facet.entryOf = .error (.fault .tooManyDigits)) := by
  rw [fetch_handle]
  rcases entriesOf_machines entry.instances with ⟨instances, same, all⟩ | ⟨failed, r, member, long⟩
  · left
    rw [same]
    refine ⟨?_, _, rfl, rfl, ?_⟩
    · intro n member
      obtain ⟨r, machine, index⟩ := List.mem_flatMap.mp member
      have kept : ∃ e, Snapshot.Instance.ofRecord r = .ok e := exists_ofRecord_of_mem all machine
      exact (Snapshot.Instance.exists_ofRecord_iff r).mp kept n (by simpa using index)
    · simp only [Json.IsWritable, entry.int_mem_snapshot all]
  · right
    rw [failed]
    obtain ⟨n, index, long⟩ := long
    refine ⟨⟨n, ?_, long⟩, rfl⟩
    exact List.mem_flatMap.mpr ⟨r, member, by simpa using index⟩

theorem name_of_fetch {entry : Entry} {snapshot : Snapshot Facet.Entry}
    (fetched : entry.handle.fetch Facet.entryOf = .ok snapshot) : snapshot.name = entry.name := by
  rcases entry.fetch_cases with ⟨_, _, same, name, _⟩ | ⟨_, failed⟩
  · cases same.symm.trans fetched
    exact name
  · cases failed.symm.trans fetched

end Inventory.Entry

end Deployments
