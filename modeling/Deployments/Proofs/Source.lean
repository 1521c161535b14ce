import Deployments.Proofs.Inventory
import Deployments.Proofs.Reading.Aborted
import Deployments.Proofs.Value
import Deployments.Proofs.Yaml.Hexadecimal

/-!
What loading makes of a document. A configuration is loaded or its defects are reported if its
document is empty or a mapping whose keys are texts. Of an inventory this holds if besides the load
averages of all machines can be walked through.
-/

namespace Deployments

open Reading Checked

namespace Record

theorem Errand.not_aborts_read : ∀ v, ¬ (read v).Aborts := not_aborts_record fun _ => by simp

theorem Release.not_aborts_read : ∀ v, ¬ (read v).Aborts := not_aborts_record fun _ => by simp

theorem Stemcell.not_aborts_read : ∀ v, ¬ (read v).Aborts :=
  not_aborts_record fun entries => by
    have osField := FieldReader.not_aborts_get (f := osField) aborts_text entries
    simpa using osField

@[simp] theorem aborts_vitalField (key : Text) (entries : Entries) :
    ¬ ((vitalField key).get entries).Aborts := by simp [vitalField]

theorem Uptime.not_aborts_read : ∀ v, ¬ (read v).Aborts := not_aborts_record fun _ => by simp

theorem Cpu.not_aborts_read : ∀ v, ¬ (read v).Aborts := not_aborts_record fun _ => by simp

theorem Mem.not_aborts_read : ∀ v, ¬ (read v).Aborts := not_aborts_record fun _ => by simp

theorem Disk.not_aborts_read : ∀ v, ¬ (read v).Aborts := not_aborts_record fun _ => by simp

theorem Disks.not_aborts_read (v : Value) : ¬ (read v).Aborts := by
  have finishes (entries : Entries) : ¬ (readEntries entries).Aborts := by
    induction entries with
    | nil => exact aborts_ok _
    | cons entry rest ih => simp [readEntries, Disk.not_aborts_read, ih]
  unfold read
  split
  next entries => simpa using finishes entries
  next => exact aborts_refused _

/-- Load averages that are given, but not one by one. -/
def IsUnwalkable (load : Value) : Prop := load ≠ .null ∧ load.items? = none

theorem Vitals.aborts_readLoad {load : Value} : (readLoad load).Aborts ↔ IsUnwalkable load := by
  unfold readLoad IsUnwalkable
  split
  next => simp
  next given =>
    cases walked : load.items? with
    | none => simpa using given
    | some items => simp [aborts_items]

theorem Vitals.aborts_read {vitals : Value} :
    (read vitals).Aborts ↔ ∃ load, vitals.at? "load" = some load ∧ IsUnwalkable load := by
  rw [read, aborts_record]
  simp only [aborts_seq, aborts_fmap, FieldReader.aborts_optional, Cpu.not_aborts_read,
    Mem.not_aborts_read, Uptime.not_aborts_read, Disks.not_aborts_read, aborts_readLoad, and_false,
    exists_false, false_or, or_false]
  cases vitals <;> simp [Value.at?]

theorem ProcessCpu.not_aborts_read : ∀ v, ¬ (read v).Aborts := not_aborts_record fun _ => by simp

theorem ProcessMem.not_aborts_read : ∀ v, ¬ (read v).Aborts := not_aborts_record fun _ => by simp

theorem Process.not_aborts_read : ∀ v, ¬ (read v).Aborts :=
  not_aborts_record fun _ => by
    simp [Uptime.not_aborts_read, ProcessCpu.not_aborts_read, ProcessMem.not_aborts_read]

theorem Machine.aborts_read {machine : Value} :
    (read machine).Aborts ↔ ∃ vitals, machine.at? "vitals" = some vitals ∧
      ∃ load, vitals.at? "load" = some load ∧ IsUnwalkable load := by
  have textField (key : Text) (entries : Entries) :
      ¬ ((Machine.textField key).get entries).Aborts :=
    FieldReader.not_aborts_get (fun _ => aborts_text _) entries
  have otherField (key other : Text) (entries : Entries) :
      ¬ (((Machine.textField key).orUnder other).get entries).Aborts :=
    FieldReader.not_aborts_get (fun _ => aborts_text _) entries
  have listField {α : Type} (key : Text) {read : Value → Checked α}
      (finishes : ∀ v, ¬ (read v).Aborts) (entries : Entries) :
      ¬ ((Machine.listField key read).get entries).Aborts :=
    FieldReader.not_aborts_get
      (fun v => show ¬ (list read (nullAs (.list []) v)).Aborts by simp [aborts_list, finishes])
      entries
  have sameLoad (vitals : Value) : (nullAs (.dict []) vitals).at? "load" = vitals.at? "load" := by
    cases vitals <;> rfl
  rw [read, aborts_record]
  simp only [aborts_seq, aborts_fmap, FieldReader.aborts_optional, textField, otherField,
    listField "ips" aborts_text, listField "processes" Process.not_aborts_read,
    aborts_optional_integer, aborts_boolean, Vitals.aborts_read, sameLoad, and_false,
    exists_false, false_or, or_false]
  cases machine <;> simp [Value.at?]

end Record

namespace Inventory

/-- A document gives load averages for a machine of one of its deployments. -/
def GivesLoad (document load : Value) : Prop :=
  ∃ deployments, document.at? "deployments" = some deployments ∧
    ∃ entry ∈ deployments.listed, ∃ instances, entry.at? "instances" = some instances ∧
      ∃ machine ∈ instances.listed, ∃ vitals, machine.at? "vitals" = some vitals ∧
        vitals.at? "load" = some load

theorem Entry.aborts_read {entry : Value} :
    (read entry).Aborts ↔ ∃ instances, entry.at? "instances" = some instances ∧
      ∃ machine ∈ instances.listed, (Record.Machine.read machine).Aborts := by
  rw [read, aborts_record]
  simp only [aborts_seq, aborts_fmap, FieldReader.aborts_optional, FieldReader.aborts_required,
    aborts_list, aborts_text, Record.Errand.not_aborts_read, Record.Release.not_aborts_read,
    Record.Stemcell.not_aborts_read, and_false, exists_false, false_or, or_false]
  cases entry <;> simp [Value.at?]

theorem aborts_readFields {entries : Entries} :
    (readFields entries).Aborts ↔
      ∃ load, GivesLoad (.dict entries) load ∧ Record.IsUnwalkable load := by
  simp only [readFields, aborts_fmap, FieldReader.aborts_optional, aborts_list, Entry.aborts_read,
    Record.Machine.aborts_read, GivesLoad]
  constructor
  · rintro ⟨deployments, given, entry, member, instances, own, machine, place, vitals, there, load,
      found, unwalkable⟩
    exact ⟨load, ⟨deployments, given, entry, member, instances, own, machine, place, vitals, there,
      found⟩, unwalkable⟩
  · rintro ⟨load, ⟨deployments, given, entry, member, instances, own, machine, place, vitals, there,
      found⟩, unwalkable⟩
    exact ⟨deployments, given, entry, member, instances, own, machine, place, vitals, there, load,
      found, unwalkable⟩

end Inventory

namespace Config

theorem Director.not_aborts_read : ∀ v, ¬ (read v).Aborts := not_aborts_record fun _ => by simp

theorem Filters.not_aborts_read : ∀ v, ¬ (read v).Aborts :=
  not_aborts_record fun _ => by simp [aborts_list]

theorem Logging.not_aborts_readLevel (v : Value) : ¬ (readLevel v).Aborts := by
  unfold readLevel Checked.bind
  split
  next =>
    dsimp only
    split <;> simp
  next => simp
  next fault stopped => exact absurd ⟨fault, stopped⟩ (aborts_text v)

theorem Logging.not_aborts_read : ∀ v, ¬ (read v).Aborts :=
  not_aborts_record fun _ => by simp [not_aborts_readLevel]

theorem not_aborts_readFields (entries : Entries) : ¬ (readFields entries).Aborts := by
  simp [readFields, Director.not_aborts_read, Filters.not_aborts_read, Logging.not_aborts_read]

end Config

namespace Source

variable {α : Type}

/-- The file under the path holds the document. -/
def Holds (files : Files) (order : SetOrder) (path : Text) (document : Value) : Prop :=
  ∃ bytes text, files.find path = .file bytes ∧ Text.decode? bytes = some text ∧
    Yaml.load order (lines text.toList) = .ok document

def AllNamed (entries : Entries) : Prop := ∀ entry ∈ entries, isName entry.1 = true

/-- Loading succeeds, or it fails with a report on the defects. -/
def Answers (outcome : Except LoadError α) : Prop :=
  (∃ a, outcome = .ok a) ∨ ∃ title defects, outcome = .error (.invalid title defects)

/-- What loading a document should come to: nothing but a mapping or an empty document is loaded,
and what is not loaded is reported. -/
structure Validates (document : Value) (outcome : Except LoadError α) : Prop where
  answers : Answers outcome
  mapping : ∀ a, outcome = .ok a → document = .null ∨ ∃ entries, document = .dict entries

theorem Holds.read_eq {files : Files} {order : SetOrder} {path : Text} {document : Value}
    (holds : Holds files order path document) (kind : String) :
    read files order kind path = .ok (orEmpty document) := by
  obtain ⟨bytes, text, found, decoded, loaded⟩ := holds
  simp only [read, found, parse, decoded, loaded]

theorem orEmpty_of_truthy {v : Value} (present : v.isTruthy = true) : orEmpty v = v :=
  if_pos present

theorem orEmpty_of_falsy {v : Value} (absent : v.isTruthy = false) : orEmpty v = .dict [] :=
  if_neg (by simp [absent])

theorem orEmpty_orEmpty (v : Value) : orEmpty (orEmpty v) = orEmpty v := by
  cases present : v.isTruthy with
  | true => rw [orEmpty_of_truthy present, orEmpty_of_truthy present]
  | false => rw [orEmpty_of_falsy present, orEmpty_of_falsy rfl]

theorem isEndless_orEmpty (v : Value) : (orEmpty v).isEndless = v.isEndless := by
  cases present : v.isTruthy with
  | true => rw [orEmpty_of_truthy present]
  | false =>
    rw [orEmpty_of_falsy present]
    cases v with
    | list items =>
      cases items with
      | nil => rfl
      | cons => cases present
    | dict entries =>
      cases entries with
      | nil => rfl
      | cons => cases present
    | again => cases present
    | _ => rfl

theorem isTruthy_dict_iff {entries : Entries} :
    (Value.dict entries).isTruthy = false ↔ entries = [] := by
  simp [Value.isTruthy]

/-- Fields are read, or what is wrong with them is reported, if all of them have names and no fault
stops the reading. -/
theorem answers_named_iff {title reader : String} {fields : Entries → Checked α} {v : Value} :
    Answers (named title reader fields v) ↔
      ∃ entries, v = .dict entries ∧ AllNamed entries ∧ ¬ (fields entries).Aborts := by
  cases v with
  | dict entries =>
    simp only [Value.dict.injEq, exists_eq_left']
    by_cases texts : AllNamed entries
    · rw [named, if_pos (List.all_eq_true.mpr texts), and_iff_right texts]
      cases fields entries <;> simp [Answers]
    · rw [named, if_neg (mt List.all_eq_true.mp texts)]
      exact iff_of_false (by simp [Answers]) fun named_ => texts named_.1
  | _ => simp [named, Answers]

end Source

namespace Placeholder

variable {env : Environment}

theorem substitute_eq_dict_iff {v : Value} {replaced : Entries} :
    substitute env v = .dict replaced ↔
      ∃ entries, v = .dict entries ∧ substituteEntries env entries = replaced := by
  cases v <;> simp [substitute]

theorem allNamed_substituteEntries {entries : Entries} :
    Source.AllNamed (substituteEntries env entries) ↔ Source.AllNamed entries := by
  rw [substituteEntries_eq_map, Source.AllNamed, List.forall_mem_map, Source.AllNamed]

end Placeholder

section Documents

open Source

variable {files : Files} {order : SetOrder} {path : Text} {document : Value}

theorem Inventory.validates_iff (holds : Holds files order path document) :
    Validates document (load files order path) ↔
      document = .null ∨ ∃ entries, document = .dict entries ∧ AllNamed entries ∧
        ∀ load, GivesLoad document load → ¬ Record.IsUnwalkable load := by
  have loaded : load files order path =
      named title reader readFields (orEmpty document) := by
    rw [load, holds.read_eq, Except.bind, ofValue, orEmpty_orEmpty]
  rw [loaded]
  cases present : document.isTruthy with
  | true =>
    rw [orEmpty_of_truthy present]
    have filled : document ≠ .null := by
      rintro rfl
      cases present
    constructor
    · intro validates
      obtain ⟨entries, rfl, texts, finishes⟩ := answers_named_iff.mp validates.answers
      rw [aborts_readFields, not_exists] at finishes
      exact .inr ⟨entries, rfl, texts, fun load given unwalkable =>
        finishes load ⟨given, unwalkable⟩⟩
    · rintro (rfl | ⟨entries, rfl, texts, walkable⟩)
      · exact (filled rfl).elim
      · refine ⟨answers_named_iff.mpr ⟨entries, rfl, texts, ?_⟩, fun _ _ => .inr ⟨entries, rfl⟩⟩
        rw [aborts_readFields]
        rintro ⟨load, given, unwalkable⟩
        exact walkable load given unwalkable
  | false =>
    -- What counts as absent is always loaded, so it has to be empty itself.
    rw [orEmpty_of_falsy present]
    constructor
    · intro validates
      rcases validates.mapping ⟨[]⟩ rfl with rfl | ⟨entries, rfl⟩
      · exact .inl rfl
      · obtain rfl := isTruthy_dict_iff.mp present
        refine .inr ⟨[], rfl, List.forall_mem_nil _, ?_⟩
        rintro load ⟨deployments, given, _⟩
        cases given
    · intro shape
      refine ⟨.inl ⟨⟨[]⟩, rfl⟩, fun _ _ => ?_⟩
      rcases shape with empty | ⟨entries, same, _⟩
      · exact .inl empty
      · exact .inr ⟨entries, same⟩

theorem Config.validates_iff (holds : Holds files order path document) (env : Environment) :
    Validates document (load files env order path) ↔
      document.isEndless = false ∧ (document.isTruthy = false ∨
        ∃ entries, document = .dict entries ∧ AllNamed entries) := by
  have kept := isEndless_orEmpty document
  cases endless : document.isEndless with
  | true =>
    have loaded : load files env order path = .error (.fault .endless) := by
      rw [load, holds.read_eq, Except.bind, ofDocument, if_pos (kept.trans endless)]
    refine iff_of_false (fun validates => ?_) (fun ends => nomatch ends.1)
    rcases validates.answers with ⟨_, same⟩ | ⟨_, _, same⟩ <;> cases loaded.symm.trans same
  | false =>
  have loaded : load files env order path =
      named title reader readFields (Placeholder.substitute env (orEmpty document)) := by
    rw [load, holds.read_eq, Except.bind, ofDocument, kept, endless, if_neg Bool.false_ne_true,
      ofValue]
  rw [loaded, and_iff_right rfl]
  cases present : document.isTruthy with
  | true =>
    rw [orEmpty_of_truthy present]
    simp only [Bool.true_eq_false, false_or]
    constructor
    · intro validates
      obtain ⟨replaced, same, texts, _⟩ := answers_named_iff.mp validates.answers
      obtain ⟨entries, rfl, rfl⟩ := Placeholder.substitute_eq_dict_iff.mp same
      exact ⟨entries, rfl, Placeholder.allNamed_substituteEntries.mp texts⟩
    · rintro ⟨entries, rfl, texts⟩
      refine ⟨answers_named_iff.mpr ⟨_, rfl, ?_, not_aborts_readFields _⟩,
        fun _ _ => .inr ⟨entries, rfl⟩⟩
      exact Placeholder.allNamed_substituteEntries.mpr texts
  | false =>
    rw [orEmpty_of_falsy present]
    refine iff_of_true ⟨.inr ⟨title, _, rfl⟩, fun config done => ?_⟩ (.inl rfl)
    cases done

end Documents

namespace Source

def soleFile (text : String) : Files := [Files.named "f" text]

theorem holds_soleFile {text : String} {document : Value}
    (loaded : (Yaml.load .asGiven (lines text.toList)).toOption = some document) :
    Holds (soleFile text) .asGiven "f" document := by
  have found : (soleFile text).find "f" = .file (Text.encode text) := by
    unfold soleFile Files.named
    generalize Text.encode text = bytes
    cbv
  refine ⟨_, text, found, Text.decode?_encode text, ?_⟩
  generalize Yaml.load .asGiven (lines text.toList) = outcome at loaded
  cases outcome with
  | error fault => cases loaded
  | ok v => exact congrArg Except.ok (Option.some.inj loaded)

/-- The inventory of a machine with the load averages. -/
def inventoryText (load : String) : String :=
  "deployments:\n- name: a\n  instances:\n  - vitals: \x7bload: " ++ load ++ "\x7d\n"

def inventoryOf (load : Value) : Value :=
  .dict [(.text "deployments", .list [.dict [(.text "name", .text "a"), (.text "instances",
    .list [.dict [(.text "vitals", .dict [(.text "load", load)])]])]])]

theorem givesLoad_inventoryOf {load given : Value} :
    Inventory.GivesLoad (inventoryOf load) given ↔ given = load := by
  simp [Inventory.GivesLoad, inventoryOf, Value.at?, Entries.field?, Value.listed, eq_comm]

/-- A configuration with a list that contains itself. -/
def endlessText : String := "director: \x7binventory_path: i\x7d\nx: &a [*a]\n"

end Source

end Deployments
