import Deployments.Proofs.Config
import Deployments.Proofs.Snapshot

/-!
The instances that raw machines give. A raw machine has an instance if its identity is not empty,
and the instance is healthy if the states of its job and of all its processes are given as running.
-/

namespace Deployments

open Decimal Reading

namespace Value

def given? (key other : Text) (v : Value) : Option Value := (v.at? key).or (v.at? other)

def isBlankText : Value → Bool
  | null => true
  | text s => s == ""
  | bytes bs => bs == []
  | _ => false

/-- The machine has an identity that is not empty. -/
def hasIdentity (v : Value) : Bool := (v.given? "vm_cid" "vm_id").any fun raw => !raw.isBlankText

/-- The value is the text, or the bytes that encode it. -/
def Writes (s : Text) (v : Value) : Prop :=
  v = text s ∨ ∃ word : String, s = word ∧ v = bytes (Text.encode word)

/-- The state is given, and it is that of what is up. -/
def IsRunning (state : Option Value) : Prop := ∃ raw ∈ state, raw.Writes Record.running

def processes (v : Value) : List Value := ((v.at? "processes").map listed).getD []

end Value

theorem Value.text_eq_ok_iff {raw : Value} {s : Text} :
    Reading.text raw = .ok s ↔ raw.Writes s := by
  cases raw with
  | text => simp [Reading.text, Writes]
  | bytes bs =>
    have decoded (word : String) :
        Text.decode? bs = some word ↔ Value.bytes bs = bytes (Text.encode word) := by
      rw [Text.decode?_eq_some_iff, bytes.injEq, eq_comm]
    simp only [Writes, ← decoded]
    cases found : Text.decode? bs <;> simp [Reading.text, found, Checked.refused, eq_comm]
  | _ => simp [Reading.text, Writes, Checked.refused]

theorem Value.Writes.isBlankText {raw : Value} {s : Text} (written : raw.Writes s) :
    raw.isBlankText = (s == "") := by
  rcases written with rfl | ⟨word, rfl, rfl⟩
  · rfl
  · rw [Value.isBlankText, Bool.eq_iff_iff, beq_iff_eq, beq_iff_eq, Text.encode_eq_nil_iff,
      Text.ofString_inj]

theorem Value.Writes.unique {raw : Value} {s t : Text} (written : raw.Writes s)
    (again : raw.Writes t) : s = t := by
  rw [← text_eq_ok_iff] at written again
  exact Checked.ok.inj (written.symm.trans again)

theorem Value.isRunning_some_iff {raw : Value} {s : Text} (written : raw.Writes s) :
    IsRunning (some raw) ↔ s = Record.running := by
  constructor
  · rintro ⟨_, given, running⟩
    cases given
    exact written.unique running
  · rintro rfl
    exact ⟨raw, rfl, written⟩

namespace Record

variable {entries : Entries}

/-- A text that may be null, under either of its keys. -/
theorem Machine.given_of_textField {key other s : Text}
    (done : ((textField key).orUnder other).get entries = .ok s) :
    (∃ raw, (Value.dict entries).given? key other = some raw ∧ raw.Writes s) ∨
      (s = "" ∧ ∀ raw ∈ (Value.dict entries).given? key other, raw = .null) := by
  -- A null that is given has been read as the empty text.
  have given : ∀ raw, text (nullAs (.text "") raw) = .ok s →
      raw.Writes s ∨ (s = "" ∧ raw = .null) := by
    intro raw read
    cases raw with
    | null => exact .inr ⟨(Checked.ok.inj read).symm, rfl⟩
    | _ => exact .inl (Value.text_eq_ok_iff.mp read)
  have own : (Value.dict entries).given? key other =
      (entries.field? key).or (entries.field? other) := rfl
  rw [own]
  simp only [FieldReader.get, FieldReader.given?, FieldReader.orUnder, textField,
    FieldReader.optional] at done
  cases first : entries.field? key with
  | some raw =>
    rw [first] at done
    rcases given raw (Checked.under_eq_ok_iff.mp done) with written | ⟨empty, null⟩
    · exact .inl ⟨raw, rfl, written⟩
    · exact .inr ⟨empty, by simpa using null⟩
  | none =>
    cases second : entries.field? other with
    | some raw =>
      simp only [first, second, Option.bind_some, Option.map_some] at done
      rcases given raw (Checked.under_eq_ok_iff.mp done) with written | ⟨empty, null⟩
      · exact .inl ⟨raw, rfl, written⟩
      · exact .inr ⟨empty, by simpa using null⟩
    | none =>
      simp only [first, second, Option.bind_some, Option.map_none] at done
      exact .inr ⟨(Checked.ok.inj done).symm, by simp⟩

theorem running_ne_empty : running ≠ "" := by decide

theorem Machine.running_iff {key other s : Text}
    (done : ((textField key).orUnder other).get entries = .ok s) :
    s = running ↔ Value.IsRunning ((Value.dict entries).given? key other) := by
  rcases given_of_textField done with ⟨raw, given, written⟩ | ⟨rfl, null⟩
  · rw [given, Value.isRunning_some_iff written]
  · refine iff_of_false (Ne.symm running_ne_empty) ?_
    rintro ⟨raw, given, written⟩
    rw [null raw given] at written
    rcases written with same | ⟨_, _, same⟩ <;> cases same

theorem Machine.hasIdentity_of_read {s : Text}
    (done : ((textField "vm_cid").orUnder "vm_id").get entries = .ok s) :
    (Value.dict entries).hasIdentity = (s != "") := by
  rcases given_of_textField done with ⟨raw, given, written⟩ | ⟨rfl, null⟩
  · rw [Value.hasIdentity, given, Option.any_some, written.isBlankText]
    rfl
  · rw [Value.hasIdentity]
    cases given : (Value.dict entries).given? "vm_cid" "vm_id" with
    | none => rfl
    | some raw =>
      rw [null raw given]
      rfl

theorem Process.running_iff {raw : Value} {r : Process} (accepted : read raw = .ok r) :
    r.isRunning = true ↔ Value.IsRunning (raw.at? "state") := by
  obtain ⟨entries, rfl, done⟩ := exists_entries_of_record accepted
  simp only [Checked.eq_ok_iff_exists (a := r), Checked.exists_seq_iff,
    Checked.exists_map_iff] at done
  obtain ⟨_, _, state, given, _, _, _, _, _, _, rfl⟩ := done
  rw [isRunning, beq_iff_eq, Value.at?]
  rcases FieldReader.get_optional given with ⟨missing, rfl⟩ | ⟨raw, found, read⟩
  · simp [missing, Value.IsRunning, Ne.symm running_ne_empty]
  · rw [found, Value.isRunning_some_iff (Value.text_eq_ok_iff.mp read)]

theorem Machine.processes_of_read {found : List Process}
    (done : (listField "processes" Process.read).get entries = .ok found) :
    List.Forall₂ (fun raw r => Process.read raw = .ok r) (Value.dict entries).processes found := by
  rw [Value.processes, Value.at?]
  rcases FieldReader.get_optional done with ⟨missing, rfl⟩ | ⟨raw, given, read⟩
  · rw [missing]
    exact .nil
  · rw [given]
    cases raw with
    | null =>
      cases read
      exact .nil
    | _ => exact forall₂_listed read

/-- What a machine keeps of the raw one: whether it exists, and whether it is up. -/
theorem Machine.raw_of_read {raw : Value} {r : Machine} (accepted : read raw = .ok r) :
    raw.hasIdentity = r.hasVm ∧
      (r.jobState = running ↔ Value.IsRunning (raw.given? "job_state" "process_state")) ∧
      List.Forall₂ (fun raw r => Process.read raw = .ok r) raw.processes r.processes := by
  obtain ⟨entries, rfl, done⟩ := exists_entries_of_record accepted
  simp only [Checked.eq_ok_iff_exists (a := r), Checked.exists_seq_iff,
    Checked.exists_map_iff] at done
  obtain ⟨_, _, _, _, _, _, _, _, _, state, _, _, _, _, _, _, _, identity, _, _, _, _, _, _, _, _,
    _, processes, rfl⟩ := done
  exact ⟨hasIdentity_of_read identity, running_iff state, processes_of_read processes⟩

theorem Machine.isRunning_iff {raw : Value} {r : Machine} (accepted : read raw = .ok r) :
    r.isRunning = true ↔ Value.IsRunning (raw.given? "job_state" "process_state") ∧
      ∀ process ∈ raw.processes, Value.IsRunning (process.at? "state") := by
  obtain ⟨_, state, processes⟩ := raw_of_read accepted
  have all : (∀ process ∈ r.processes, process.isRunning = true) ↔
      ∀ process ∈ raw.processes, Value.IsRunning (process.at? "state") := by
    generalize raw.processes = rawProcesses at processes
    generalize r.processes = records at processes
    induction processes with
    | nil => simp
    | cons head _ ih => simp only [List.forall_mem_cons, Process.running_iff head, ih]
  rw [isRunning, Bool.and_eq_true, beq_iff_eq, List.all_eq_true, state, all]

end Record

namespace Snapshot.Instance

/-- The instance of a raw machine, which is healthy if its job and all its processes are up. -/
structure IsOf (raw : Value) (e : Instance) : Prop where
  kept : ∃ r, Record.Machine.read raw = .ok r ∧ ofRecord r = .ok e
  healthy_iff_given : e.healthy = true ↔
    Value.IsRunning (raw.given? "job_state" "process_state") ∧
      ∀ process ∈ raw.processes, Value.IsRunning (process.at? "state")
  healthy_iff_processes : e.healthy = true ↔
    Value.IsRunning (raw.given? "job_state" "process_state") ∧
      ∀ process ∈ e.processes, process.healthy = true

theorem isOf_of_read {raw : Value} {r : Record.Machine} {e : Instance}
    (accepted : Record.Machine.read raw = .ok r) (kept : ofRecord r = .ok e) : IsOf raw e := by
  obtain ⟨_, state, _⟩ := Record.Machine.raw_of_read accepted
  obtain ⟨index, _, rfl⟩ := map_eq_ok_iff.mp kept
  refine ⟨⟨r, accepted, kept⟩, Record.Machine.isRunning_iff accepted, ?_⟩
  rw [← state]
  simp [Record.Machine.isRunning, Process.ofRecord]

end Snapshot.Instance

/-- The raw machines are read as the records, one by one. -/
def Record.Machine.ReadAs (raw : List Value) (records : List Record.Machine) : Prop :=
  List.Forall₂ (fun v r => Record.Machine.read v = .ok r) raw records

namespace Record.Machine.ReadAs

variable {raw others : List Value} {records found : List Record.Machine}

theorem filter (accepted : ReadAs raw records) :
    ReadAs (raw.filter (·.hasIdentity)) (records.filter (·.hasVm)) := by
  induction accepted with
  | nil => exact .nil
  | @cons v r _ _ head _ ih =>
    have same := (raw_of_read head).1
    cases exists_ : r.hasVm with
    | true =>
      rw [List.filter_cons_of_pos (same.trans exists_), List.filter_cons_of_pos exists_]
      exact .cons head ih
    | false =>
      rw [List.filter_cons_of_neg (by simp [same, exists_]),
        List.filter_cons_of_neg (by simp [exists_])]
      exact ih

theorem unique (accepted : ReadAs raw records) (again : ReadAs raw found) : records = found := by
  induction accepted generalizing found with
  | nil =>
    cases again
    rfl
  | cons head _ ih =>
    cases again with
    | cons first later =>
      rw [Checked.ok.inj (head.symm.trans first), ih later]

theorem isOf (accepted : ReadAs raw records) {instances : List Snapshot.Instance}
    (kept : List.Forall₂ (fun r e => Snapshot.Instance.ofRecord r = .ok e) records instances) :
    List.Forall₂ Snapshot.Instance.IsOf raw instances := by
  induction accepted generalizing instances with
  | nil =>
    cases kept
    exact .nil
  | cons head _ ih =>
    cases kept with
    | cons first later => exact .cons (Snapshot.Instance.isOf_of_read head first) (ih later)

end Record.Machine.ReadAs

theorem entriesOf_hasVm (records : List Record.Machine) :
    entriesOf (Facet.entryOf .instances) (records.filter (·.hasVm)) =
      entriesOf (Facet.entryOf .instances) records :=
  entriesOf_filter (fun r => (Facet.entryOf_eq_none_iff r).mpr) records

/-- The instances are those of the raw machines whose identity is not empty, in their order, and
raw machines without an identity do not count. -/
theorem instances_of_identified {raw : List Value} {records : List Record.Machine}
    (accepted : Record.Machine.ReadAs raw records)
    (short : ∀ r ∈ records, ∀ n ∈ r.index, Writable n) :
    ∃ instances, List.Forall₂ Snapshot.Instance.IsOf (raw.filter (·.hasIdentity)) instances ∧
      (∀ h : Handle Facet.Record, h.answer .instances = .ok records →
        h.read Facet.entryOf .instances = .ok instances) ∧
      ∀ others found, Record.Machine.ReadAs others found →
        others.filter (·.hasIdentity) = raw.filter (·.hasIdentity) →
          ∀ h : Handle Facet.Record, h.answer .instances = .ok found →
            h.read Facet.entryOf .instances = .ok instances := by
  rcases entriesOf_machines records with ⟨instances, same, all⟩ | ⟨_, r, member, n, index, long⟩
  · have general : ∀ others found, Record.Machine.ReadAs others found →
        others.filter (·.hasIdentity) = raw.filter (·.hasIdentity) →
          ∀ h : Handle Facet.Record, h.answer .instances = .ok found →
            h.read Facet.entryOf .instances = .ok instances := by
      intro others found readAs identified h served
      have filtered := readAs.filter
      rw [identified] at filtered
      rw [← entriesOf_hasVm, accepted.filter.unique filtered, entriesOf_hasVm] at same
      simp only [Handle.read, served, same]
    exact ⟨instances, accepted.filter.isOf all, general raw records accepted rfl, general⟩
  · exact (long (short r (List.mem_of_mem_filter member) n index)).elim

/-- A null identity counts, although another one is given. -/
def placeholder : Value := .record [("vm_cid", .null), ("vm_id", .text "vm-1")]

def runningMachine : Value :=
  .record [("vm_id", .bytes [118, 109]), ("process_state", .text "running"), ("index", .text "07"),
    ("processes", .list [.record [("name", .text "router"), ("state", .text "running")]])]

theorem instances_of_placeholder_between :
    ∃ records instances,
      Record.Machine.ReadAs [runningMachine, placeholder, runningMachine] records ∧
        List.Forall₂ Snapshot.Instance.IsOf [runningMachine, runningMachine] instances ∧
        ∀ h : Handle Facet.Record, h.answer .instances = .ok records →
          h.read Facet.entryOf .instances = .ok instances := by
  let process : Record.Process := ⟨"router", "running", .absent, .absent, .absent⟩
  let machine : Record.Machine :=
    ⟨"", "", "", some 7, "running", false, [], "", "vm", "", "", false, .absent, [process]⟩
  let none_ : Record.Machine :=
    ⟨"", "", "", none, "", false, [], "", "", "", "", false, .absent, []⟩
  have accepted : Record.Machine.ReadAs [runningMachine, placeholder, runningMachine]
      [machine, none_, machine] := by
    have up : Record.Machine.read runningMachine = .ok machine := by decide
    have absent : Record.Machine.read placeholder = .ok none_ := by decide
    exact .cons up (.cons absent (.cons up .nil))
  obtain ⟨instances, all, served, _⟩ := instances_of_identified accepted (by decide)
  exact ⟨_, instances, accepted, all, served⟩

end Deployments
