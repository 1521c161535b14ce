import Deployments.Proofs.Fetcher
import Deployments.Proofs.Inventory
import Deployments.Proofs.Json.Valid
import Deployments.Proofs.Yaml.Values

/-!
The numbers of an inventory. They are printed as they have been read, be they finite or not, and
each has its one form.
-/

namespace Deployments

open Decimal Reading

namespace Reading

theorem canonical_numberText {s : String} {x : Binary64} (done : numberText s = .ok x) :
    x.Canonical := by
  unfold numberText at done
  split at done
  next found =>
    cases done
    obtain ⟨cs, _, read⟩ := Option.bind_eq_some_iff.mp found
    exact canonical_number? read
  next => cases done

theorem keeps_number : Keeps Value.IsCanonical number Binary64.Canonical := by
  intro v x all done
  cases v with
  | float y =>
    cases done
    exact all.self
  | int n =>
    unfold number at done
    dsimp only at done
    split at done
    next =>
      cases done
      exact Binary64.canonical_ofInt n
    next => cases done
  | bool b =>
    cases done
    exact Binary64.canonical_ofInt _
  | text s =>
    obtain ⟨_, _, read⟩ := ofCharacters_eq_ok_iff.mp done
    exact canonical_numberText read
  | bytes bs =>
    unfold number at done
    dsimp only at done
    split at done
    next => exact canonical_numberText done
    next => cases done
  | null | date | moment | list | tuple | set | dict | again => cases done

theorem admits_canonical : Admits Value.IsCanonical (fun _ => True) Binary64.Canonical where
  character _ := trivial
  byte _ _ := trivial
  emptyList := trivial
  emptyDict := trivial
  integer _ _ _ _ := trivial
  number := keeps_number

end Reading

theorem Source.all_of_read {files : Files} {order : SetOrder} {kind : String} {path : Text}
    {document : Value} (done : read files order kind path = .ok document) :
    document.All Value.IsCanonical := by
  unfold read at done
  split at done
  next => cases done
  next => cases done
  next => cases done
  next =>
    unfold parse at done
    split at done
    next => cases done
    next =>
      split at done
      next loaded =>
        cases done
        exact all_orEmpty trivial (Yaml.all_of_load loaded)
      next => cases done

namespace Inventory

/-- The numbers of the machines of an entry that exist. -/
def Entry.numbers (entry : Entry) : List Binary64 := entry.machines.flatMap (·.numbers)

theorem canonical_of_load {files : Files} {order : SetOrder} {path : Text}
    {inventory : Inventory} (loaded : load files order path = .ok inventory)
    {names : List Text} {entries : List Entry}
    (selected : inventory.selected? names = some entries) :
    ∀ entry ∈ entries, ∀ x ∈ entry.numbers, x.Canonical := by
  obtain ⟨document, read, _⟩ := bind_eq_ok_iff.mp loaded
  intro entry member x number
  obtain ⟨r, machine, number⟩ := List.mem_flatMap.mp number
  have machines := good_of_load admits_canonical read (Source.all_of_read read) loaded entry
    (mem_of_selected? selected member)
  exact (machines r (List.mem_filter.mp machine).1).numbers x number

end Inventory

/-! ### The numbers of snapshots -/

namespace Snapshot

variable {p : Binary64 → Prop}

@[simp] theorem numbers_jsonOption_int (x : Option Int) : (jsonOption .int x).Numbers p := by
  cases x <;> simp [jsonOption]

@[simp] theorem numbers_jsonOption_text (x : Option Text) : (jsonOption .text x).Numbers p := by
  cases x <;> simp [jsonOption]

section Numbers

-- An instance has numbers that its machine has not: the total of a machine's processor usage, and
-- the kinds of work of a process. All of them are zero.
variable (zero : p Record.noNumber)

include zero

theorem Cpu.numbers_ofRecord (r : Record.Cpu) :
    (ofRecord r).toJson.Numbers p ↔ ∀ x ∈ r.numbers, p x := by
  simp [toJson, ofRecord, Json.numbers_object, Record.Cpu.numbers, zero]

theorem Cpu.numbers_ofTotal (r : Record.ProcessCpu) :
    (ofTotal r).toJson.Numbers p ↔ p r.total := by
  simp [toJson, ofTotal, Json.numbers_object, zero]

omit zero in
theorem Mem.numbers_ofRecord (r : Record.Mem) :
    (ofRecord r).toJson.Numbers p ↔ ∀ x ∈ r.numbers, p x := by
  simp [toJson, ofRecord, Json.numbers_object, Record.Mem.numbers]

omit zero in
theorem ProcessMem.numbers_ofRecord (r : Record.ProcessMem) :
    (ofRecord r).toJson.Numbers p ↔ p r.percent := by
  simp [toJson, ofRecord, Json.numbers_object]

omit zero in
theorem Disk.numbers_ofRecord (r : Record.Disk) :
    (ofRecord r).toJson.Numbers p ↔ ∀ x ∈ r.numbers, p x := by
  simp [toJson, ofRecord, Json.numbers_object, Record.Disk.numbers]

theorem Process.numbers_ofRecord (r : Record.Process) :
    (ofRecord r).toJson.Numbers p ↔ ∀ x ∈ r.numbers, p x := by
  simp [toJson, ofRecord, Json.numbers_object, Record.Process.numbers, Cpu.numbers_ofTotal zero,
    ProcessMem.numbers_ofRecord]

theorem Vitals.numbers_ofRecord (r : Record.Vitals) :
    (ofRecord r).toJson.Numbers p ↔ ∀ x ∈ r.numbers, p x := by
  simp only [toJson, ofRecord, Json.numbers_object, Json.numbers_list, List.forall_mem_cons,
    List.forall_mem_map, Json.numbers_float, numbers_jsonOption_int, Cpu.numbers_ofRecord zero,
    Mem.numbers_ofRecord, Disk.numbers_ofRecord, Record.Vitals.numbers, List.forall_mem_append]
  simp [and_assoc]

theorem Instance.numbers_ofRecord {r : Record.Machine} {e : Instance} (kept : ofRecord r = .ok e) :
    e.toJson.Numbers p ↔ ∀ x ∈ r.numbers, p x := by
  obtain ⟨index, _, rfl⟩ := map_eq_ok_iff.mp kept
  simp only [toJson, Json.numbers_object, Json.numbers_list, List.forall_mem_cons,
    List.forall_mem_map, Vitals.numbers_ofRecord zero, Process.numbers_ofRecord zero,
    numbers_jsonOption_text, Record.Machine.numbers, List.forall_mem_append,
    List.forall_mem_flatMap]
  simp

end Numbers

end Snapshot

namespace Inventory.Entry

variable {p : Binary64 → Prop}

theorem numbers_snapshot (zero : p Record.noNumber) (entry : Entry)
    {instances : List Snapshot.Instance}
    (all : List.Forall₂ (fun r e => Snapshot.Instance.ofRecord r = .ok e) entry.machines
      instances) :
    (entry.snapshot instances).toJson.Numbers p ↔ ∀ x ∈ entry.numbers, p x := by
  have kept : (∀ e ∈ instances, e.toJson.Numbers p) ↔
      ∀ r ∈ entry.machines, ∀ x ∈ r.numbers, p x := by
    generalize entry.machines = machines at all
    induction all with
    | nil => simp
    | cons head _ ih =>
      simp only [List.forall_mem_cons, Snapshot.Instance.numbers_ofRecord zero head, ih]
  rw [numbers, List.forall_mem_flatMap, ← kept]
  simp [Snapshot.toJson, Facet.all, snapshot, Snapshot.get, Facet.entryJson, Snapshot.Errand.toJson,
    Snapshot.Release.toJson, Snapshot.Stemcell.toJson, Json.numbers_object, Json.numbers_list]

theorem numbers_of_fetch (zero : p Record.noNumber) {entry : Entry}
    {snapshot : Snapshot Facet.Entry}
    (fetched : entry.handle.fetch Facet.entryOf = .ok snapshot) :
    snapshot.toJson.Numbers p ↔ ∀ x ∈ entry.numbers, p x := by
  rw [fetch_handle] at fetched
  rcases entriesOf_machines entry.instances with ⟨instances, same, all⟩ | ⟨failed, _⟩
  · rw [same] at fetched
    cases fetched
    exact numbers_snapshot zero entry all
  · rw [failed] at fetched
    cases fetched

end Inventory.Entry

/-- The numbers that are printed of entries are those of their machines. -/
theorem Fetcher.Shows.numbers_iff {p : Binary64 → Prop} (zero : p Record.noNumber)
    {entries : List Inventory.Entry} {snapshots : List (Snapshot Facet.Entry)}
    (shows_ : Shows entries snapshots) :
    (Json.list ((Snapshot.sorted snapshots).map (·.toJson))).Numbers p ↔
      ∀ entry ∈ entries, ∀ x ∈ entry.numbers, p x := by
  have sorted : (Json.list ((Snapshot.sorted snapshots).map (·.toJson))).Numbers p ↔
      ∀ snapshot ∈ snapshots, snapshot.toJson.Numbers p := by
    simp [Json.numbers_list, Snapshot.sorted]
  rw [sorted]
  exact shows_.forall_iff fun entry snapshot => Inventory.Entry.numbers_of_fetch zero

end Deployments
