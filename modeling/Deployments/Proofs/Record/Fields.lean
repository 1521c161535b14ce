import Mathlib.Data.List.Nodup
import Mathlib.Data.List.Pairwise
import Deployments.Proofs.Reading.Relocated
import Deployments.Record.Kind

/-!
The fields of each kind of record, with the forms of the records in them. All that a reading makes
of a record is what it makes of the fields, each of which is found by its own keys.
-/

namespace Deployments

open Reading

namespace Entries

variable {before after entries others : Entries} {key v : Value} {name : Text}

theorem field?_append (before after : Entries) (name : Text) :
    field? name (before ++ after) = (field? name before).or (field? name after) := by
  induction before with
  | nil => rfl
  | cons entry rest ih =>
    obtain ⟨key, v⟩ := entry
    cases key with
    | text s => by_cases same : s = name <;> simp [field?, same, ih]
    | _ => exact ih

theorem field?_cons_of_ne (other : key ≠ .text name) (rest : Entries) :
    field? name ((key, v) :: rest) = field? name rest := by
  cases key with
  | text s => simpa [field?] using fun same => absurd (congrArg Value.text same) other
  | _ => rfl

theorem field?_cons_self (name : Text) (v : Value) (rest : Entries) :
    field? name ((.text name, v) :: rest) = some v := by
  simp [field?]

theorem field?_between_of_ne (other : key ≠ .text name) :
    field? name (before ++ (key, v) :: after) = field? name (before ++ after) := by
  rw [field?_append, field?_append, field?_cons_of_ne other]

theorem field?_between_self (first : before.field? name = none) :
    field? name (before ++ (.text name, v) :: after) = some v := by
  rw [field?_append, first, field?_cons_self, Option.none_or]

end Entries

/-- A field that is given nowhere else is given under a key that is put in. -/
theorem Reading.FieldReader.given?_between {α : Type} {f : FieldReader α} {key : Text}
    {before after : Entries} (own : key ∈ f.keys)
    (alone : ∀ name ∈ f.keys, (before ++ after).field? name = none) (v : Value) :
    f.given? (before ++ (.text key, v) :: after) = some (key, v) := by
  have first := alone key own
  rw [Entries.field?_append, Option.or_eq_none_iff] at first
  refine given?_alone own (Entries.field?_between_self first.1) fun name named distinct => ?_
  have apart : Value.text key ≠ .text name := fun same => distinct (Value.text.inj same).symm
  rw [Entries.field?_between_of_ne apart, alone name named]

theorem Reading.nullAs_of_ne {v : Value} (given : v ≠ .null) (stand : Value) :
    nullAs stand v = v := by
  cases v with
  | null => exact absurd rfl given
  | _ => rfl

/-- What null stands for is read without defects, so none of them moves. -/
theorem Reading.nullAs_mapPaths {α : Type} {read : Value → Checked α} {stand v w : Value}
    {g : List Place → List Place} (stands : ∃ a, read stand = .ok a) (null : v = .null ↔ w = .null)
    (same : read w = (read v).mapPaths g) :
    read (nullAs stand w) = (read (nullAs stand v)).mapPaths g := by
  by_cases given : v = .null
  · obtain ⟨a, stands⟩ := stands
    have absent : nullAs stand .null = stand := rfl
    rw [given, null.mp given, absent, stands, Checked.mapPaths]
  · rw [nullAs_of_ne given, nullAs_of_ne (mt null.mpr given), same]

/-- How a value is read in which records may stand. -/
inductive Form where
  | record (kind : RecordKind)
  | list (kind : RecordKind)
  | disks
  deriving DecidableEq, Repr

namespace Form

abbrev Carrier : Form → Type
  | record kind => kind.Carrier
  | list kind => List kind.Carrier
  | disks => Record.Disks

def read : (form : Form) → Value → Checked form.Carrier
  | record kind => kind.read
  | list kind => Reading.list kind.read
  | disks => Record.Disks.read

end Form

/-- A field of a kind of record, with the form of its values if records may stand in them. Such a
field is read like its form, but for a value that null may stand for. -/
structure RecordField where
  carrier : Type
  reader : FieldReader carrier
  form : Option Form
  follows : ∀ inner ∈ form, ∀ (g : List Place → List Place) (v w : Value),
    (v = .null ↔ w = .null) → inner.read w = (inner.read v).mapPaths g →
    reader.read w = (reader.read v).mapPaths g

namespace RecordField

def leaf {α : Type} (reader : FieldReader α) : RecordField := ⟨α, reader, none, nofun⟩

def nested (form : Form) (reader : FieldReader form.Carrier) (plain : reader.read = form.read) :
    RecordField where
  carrier := form.Carrier
  reader := reader
  form := some form
  follows := by
    rintro _ ⟨⟩ g v w _ same
    rw [plain, same]

def nullable (form : Form) (reader : FieldReader form.Carrier) (stand : Value)
    (plain : reader.read = fun v => form.read (nullAs stand v))
    (stands : ∃ a, form.read stand = .ok a) : RecordField where
  carrier := form.Carrier
  reader := reader
  form := some form
  follows := by
    rintro _ ⟨⟩ g v w null same
    rw [plain]
    exact nullAs_mapPaths stands null same

abbrev keys (field : RecordField) : List Text := field.reader.keys

end RecordField

namespace Record

open RecordField

def Machine.idField : RecordField := leaf ((textField "vm_cid").orUnder "vm_id")

def Machine.vitalsField : RecordField :=
  nullable (.record .vitals) (.optional "vitals" .absent fun v => Vitals.read (nullAs (.dict []) v))
    (.dict []) rfl ⟨_, rfl⟩

def Machine.processesField : RecordField :=
  nullable (.list .process) (listField "processes" Process.read) (.list []) rfl ⟨_, rfl⟩

def Vitals.loadField : RecordField := leaf (.optional "load" [] readLoad)

def Process.memField : RecordField :=
  nested (.record .processMem) (.optional "mem" .absent ProcessMem.read) rfl

def ProcessMem.kbField : RecordField := leaf (.optional "kb" 0 fun v => integer (blankAsZero v))

end Record

def Inventory.Entry.instancesField : RecordField :=
  .nested (.list .machine) (.optional "instances" [] (list Record.Machine.read)) rfl

namespace RecordKind

open Record RecordField

@[simp]
def fields : RecordKind → List RecordField
  | errand => [leaf (.required "name" text)]
  | release => [leaf (.required "name" text), leaf (.required "version" versionText)]
  | stemcell =>
    [leaf (.required "name" text), leaf (.required "version" versionText), leaf Stemcell.osField]
  | uptime => [leaf (.optional "secs" none (optional integer))]
  | cpu => [leaf (vitalField "sys"), leaf (vitalField "user"), leaf (vitalField "wait")]
  | mem => [leaf (vitalField "kb"), leaf (vitalField "percent")]
  | disk => [leaf (vitalField "inode_percent"), leaf (vitalField "percent")]
  | vitals =>
    [nested (.record cpu) (.optional "cpu" .absent Cpu.read) rfl,
      nested (.record mem) (.optional "mem" .absent Mem.read) rfl,
      nested (.record mem) (.optional "swap" .absent Mem.read) rfl,
      nested (.record uptime) (.optional "uptime" .absent Uptime.read) rfl,
      Vitals.loadField, nested .disks (.optional "disk" [] Disks.read) rfl]
  | processCpu => [leaf (vitalField "total")]
  | processMem => [ProcessMem.kbField, leaf (vitalField "percent")]
  | process =>
    [leaf (.required "name" text), leaf (.optional "state" ("" : Text) text),
      nested (.record uptime) (.optional "uptime" .absent Uptime.read) rfl,
      nested (.record processCpu) (.optional "cpu" .absent ProcessCpu.read) rfl,
      Process.memField]
  | machine =>
    [leaf (Machine.textField "agent_id"), leaf (Machine.textField "job_name"),
      leaf (Machine.textField "id"), leaf (.optional "index" none (optional integer)),
      leaf ((Machine.textField "job_state").orUnder "process_state"),
      leaf (.optional "bootstrap" false boolean), leaf (Machine.listField "ips" text),
      leaf (Machine.textField "az"), Machine.idField, leaf (Machine.textField "vm_type"),
      leaf (Machine.textField "resource_pool"),
      leaf (.optional "resurrection_paused" false boolean), Machine.vitalsField,
      Machine.processesField]
  | entry =>
    [leaf (.required "name" text),
      nested (.list errand) (.optional "errands" [] (list Errand.read)) rfl,
      Inventory.Entry.instancesField,
      nested (.list release) (.optional "releases" [] (list Release.read)) rfl,
      nested (.list stemcell) (.optional "stemcells" [] (list Stemcell.read)) rfl]
  | inventory => [nested (.list entry) (.optional "deployments" [] (list Inventory.Entry.read)) rfl]
  | director => [leaf (.required "inventory_path" text)]
  | filters =>
    [leaf (.optional "deployments" [] fun v => (list text v).map Config.Filters.stripped)]
  | logging => [leaf (.optional "level" Config.Logging.absent.level Config.Logging.readLevel)]
  | config =>
    [nested (.record director) (.required "director" Config.Director.read) rfl,
      nested (.record filters) (.optional "filters" .absent Config.Filters.read) rfl,
      nested (.record logging) (.optional "logging" .absent Config.Logging.read) rfl]

theorem idField_mem : Machine.idField ∈ machine.fields := by simp

theorem vitalsField_mem : Machine.vitalsField ∈ machine.fields := by simp

theorem processesField_mem : Machine.processesField ∈ machine.fields := by simp

theorem loadField_mem : Vitals.loadField ∈ vitals.fields := by simp

theorem memField_mem : Process.memField ∈ process.fields := by simp

theorem kbField_mem : ProcessMem.kbField ∈ processMem.fields := by simp

theorem instancesField_mem : Inventory.Entry.instancesField ∈ entry.fields := by simp

def keys (kind : RecordKind) : List Text := kind.fields.flatMap RecordField.keys

theorem nodup_keys (kind : RecordKind) : kind.keys.Nodup := by
  cases kind <;> decide

section Keys

variable {kind : RecordKind} {field other : RecordField} {key name : Text}

theorem mem_keys (member : field ∈ kind.fields) (own : key ∈ field.keys) : key ∈ kind.keys :=
  List.mem_flatMap.mpr ⟨field, member, own⟩

theorem text_ne_of_ne (mine : field ∈ kind.fields) (its : other ∈ kind.fields)
    (distinct : other ≠ field) (own : key ∈ field.keys) (others : name ∈ other.keys) :
    Value.text key ≠ .text name := by
  have : Std.Symm (Function.onFun List.Disjoint RecordField.keys) :=
    ⟨fun _ _ => List.disjoint_symm⟩
  have apart := (List.nodup_flatMap.mp kind.nodup_keys).2.forall mine its distinct.symm
  rintro ⟨⟩
  exact apart own others

theorem text_ne_key (member : field ∈ kind.fields) (second : name ∈ field.reader.alternative) :
    Value.text name ≠ .text field.reader.key := by
  have apart := (List.nodup_cons.mp ((List.nodup_flatMap.mp kind.nodup_keys).1 field member)).1
  rintro ⟨⟩
  exact apart (Option.mem_toList.mpr second)

end Keys

/-- The reading of a record takes the fields one after another, the last one standing first. -/
inductive Takes : {α : Type} → List RecordField → (Entries → Checked α) → Prop where
  | first {α : Type} {field : RecordField} (make : field.carrier → α) :
    Takes [field] fun entries => make <$> field.reader.get entries
  | next {α : Type} {field : RecordField} {fields : List RecordField}
    {read : Entries → Checked (field.carrier → α)} :
    Takes fields read →
      Takes (field :: fields) fun entries => read entries <*> field.reader.get entries

theorem exists_takes (kind : RecordKind) :
    ∃ read, kind.read = record kind.title read ∧ Takes kind.fields.reverse read := by
  -- The fields are those of the reading itself, so the kinds differ in nothing but their number.
  cases kind <;> exact ⟨_, rfl, by repeat constructor⟩

theorem Takes.mapPaths {α : Type} {fields : List RecordField} {read : Entries → Checked α}
    (takes : Takes fields read) {entries others : Entries} {g : List Place → List Place}
    (moved : ∀ field ∈ fields,
      field.reader.get others = (field.reader.get entries).mapPaths g) :
    read others = (read entries).mapPaths g := by
  induction takes with
  | first make =>
    beta_reduce
    rw [Checked.mapPaths_fmap, moved _ List.mem_cons_self]
  | next _ ih =>
    rw [List.forall_mem_cons] at moved
    beta_reduce
    rw [Checked.mapPaths_apply, moved.1, ih moved.2]

/-- If the defects of all fields move, then so do those of the record. -/
theorem read_mapPaths (kind : RecordKind) {entries others : Entries} {g : List Place → List Place}
    (moved : ∀ field ∈ kind.fields,
      field.reader.get others = (field.reader.get entries).mapPaths g) :
    kind.read (.dict others) = (kind.read (.dict entries)).mapPaths g := by
  obtain ⟨read, same, takes⟩ := kind.exists_takes
  rw [same]
  exact takes.mapPaths fun field member => moved field (List.mem_reverse.mp member)

theorem read_congr (kind : RecordKind) {entries others : Entries}
    (same : ∀ field ∈ kind.fields, field.reader.get others = field.reader.get entries) :
    kind.read (.dict others) = kind.read (.dict entries) := by
  have moved (field : RecordField) (member : field ∈ kind.fields) :
      field.reader.get others = (field.reader.get entries).mapPaths id := by
    rw [same field member, Checked.mapPaths_id]
  exact (kind.read_mapPaths moved).trans (Checked.mapPaths_id _)

/-- All that counts of a record is what is given under its keys. -/
theorem read_eq_of_field? (kind : RecordKind) {entries others : Entries}
    (same : ∀ key ∈ kind.keys, others.field? key = entries.field? key) :
    kind.read (.dict others) = kind.read (.dict entries) := by
  refine kind.read_congr fun field member => FieldReader.get_congr fun key own => ?_
  exact same key (mem_keys member own)

end RecordKind

end Deployments
