import Deployments.Proofs.Record.Rewritten

/-!
Blanks in the record of a machine. What is not known of a machine may be left out, or given as null
or, if it is a number, as an empty text; it makes no difference which, at any depth of the record.
-/

namespace Deployments

open Reading Renaming Record

namespace RecordKind

def vitalKeys : RecordKind → List Text
  | cpu => ["sys", "user", "wait"]
  | mem => ["kb", "percent"]
  | disk => ["inode_percent", "percent"]
  | processCpu => ["total"]
  | processMem => ["kb", "percent"]
  | _ => []

def nullableKeys : RecordKind → List Text
  | machine =>
    ["agent_id", "job_name", "id", "index", "job_state", "process_state", "az", "vm_cid", "vm_id",
      "vm_type", "resource_pool", "ips", "processes", "vitals"]
  | vitals => ["load"]
  | uptime => ["secs"]
  | kind => kind.vitalKeys

/-- Under a key of the record a value stands for nothing. -/
def Ignores (kind : RecordKind) (key : Text) (blank : Value) : Prop :=
  (blank = .null ∧ key ∈ kind.nullableKeys) ∨ (blank = .text "" ∧ key ∈ kind.vitalKeys)

end RecordKind

/-- A value is read as what the field is if it is absent. -/
def Reading.FieldReader.IsBlank {α : Type} (f : FieldReader α) (blank : Value) : Prop :=
  ∃ a, f.absent = some a ∧ f.read blank = .ok a

namespace RecordKind

/-- No field has a key of the blanks unless it is read from them as if it were absent. -/
theorem forall_isBlank (kind : RecordKind) : ∀ field ∈ kind.fields,
    ((∀ key ∈ field.keys, key ∉ kind.nullableKeys) ∨ field.reader.IsBlank .null) ∧
      ((∀ key ∈ field.keys, key ∉ kind.vitalKeys) ∨ field.reader.IsBlank (.text "")) := by
  cases kind <;> simp only [fields, List.forall_mem_cons] <;> and_intros
  all_goals first
    | exact .inl (by decide)
    | exact .inr ⟨_, rfl, rfl⟩
    | exact List.forall_mem_nil _

theorem Ignores.isBlank {kind : RecordKind} {field : RecordField} {key : Text} {blank : Value}
    (ignores : kind.Ignores key blank) (member : field ∈ kind.fields) (own : key ∈ field.keys) :
    field.reader.IsBlank blank := by
  obtain ⟨null, empty⟩ := kind.forall_isBlank field member
  rcases ignores with ⟨rfl, nullable⟩ | ⟨rfl, vital⟩
  · exact null.resolve_left fun never => never key own nullable
  · exact empty.resolve_left fun never => never key own vital

end RecordKind

/-- The entries of a record with a blank left out, or with a zero for a blank load average. -/
inductive Blanked : RecordStep where
  | omitted {kind : RecordKind} {field : RecordField} {key : Text} {blank : Value}
    (before : Entries) {after : Entries} :
    field ∈ kind.fields → key ∈ field.keys → kind.Ignores key blank →
      (∀ name ∈ field.keys, (before ++ after).field? name = none) →
      Blanked kind [] (before ++ (.text key, blank) :: after) (before ++ after)
  | zeroed {walked other blank : Value} (first : List Value) {rest : List Value}
    (before : Entries) {after : Entries} :
    before.field? "load" = none → blank = .null ∨ blank = .text "" →
      walked.items? = some (first ++ blank :: rest) →
      other.items? = some (first ++ .int 0 :: rest) →
      Blanked .vitals [] (before ++ (.text "load", walked) :: after)
        (before ++ (.text "load", other) :: after)

namespace RecordKind

theorem read_omitted {kind : RecordKind} {field : RecordField} {key : Text} {blank : Value}
    {before after : Entries} (member : field ∈ kind.fields) (own : key ∈ field.keys)
    (ignores : kind.Ignores key blank)
    (alone : ∀ name ∈ field.keys, (before ++ after).field? name = none) :
    kind.read (.dict (before ++ after)) =
      kind.read (.dict (before ++ (.text key, blank) :: after)) := by
  refine kind.read_congr fun found its => ?_
  by_cases mine : found = field
  · subst mine
    obtain ⟨a, absent, read⟩ := ignores.isBlank member own
    rw [FieldReader.get_of_given (FieldReader.given?_between own alone blank), read,
      FieldReader.get, FieldReader.given?_eq_none alone, absent, Checked.under]
  · refine FieldReader.get_congr fun name named => ?_
    exact (Entries.field?_between_of_ne (text_ne_of_ne member its mine own named)).symm

end RecordKind

namespace Record.Vitals

theorem readLoad_of_items {v : Value} {raw : List Value} (found : v.items? = some raw) :
    readLoad v = Checked.items vital 0 raw := by
  cases v with
  | null => cases found
  | _ => simp only [readLoad, found]

theorem readLoad_zeroed {walked other blank : Value} {first rest : List Value}
    (unknown : blank = .null ∨ blank = .text "")
    (found : walked.items? = some (first ++ blank :: rest))
    (found' : other.items? = some (first ++ .int 0 :: rest)) :
    readLoad other = readLoad walked := by
  have zero : vital (.int 0) = (vital blank).mapPaths id := by
    rcases unknown with rfl | rfl <;> rfl
  rw [readLoad_of_items found, readLoad_of_items found',
    Checked.items_mapPaths (g := id) (fun j inner => by simp) zero, Checked.mapPaths_id]

end Record.Vitals

theorem Blanked.sound : Blanked.Sound := by
  intro kind renamings entries others blanked
  cases blanked with
  | omitted _ member own ignores alone =>
    rw [Checked.mapPaths_along_nil]
    exact RecordKind.read_omitted member own ignores alone
  | zeroed _ _ first unknown found found' =>
    exact RecordKind.read_given [] RecordKind.loadField_mem first
      ((Vitals.readLoad_zeroed unknown found found').trans (Checked.mapPaths_along_nil _).symm)

/-- Whatever blanks are left out of a record, at any depth, and whatever blank load averages are
replaced by zeros: it is read as the same record, stopped by the same fault, or refused for the same
causes at the same places in the same order. -/
theorem RecordKind.read_blanked (kind : RecordKind) (v w : Value)
    (rewritten : Rewritten Blanked (.record kind) [] v w) : kind.read w = kind.read v := by
  have same := rewritten.read Blanked.sound
  rwa [Checked.mapPaths_along_nil] at same

/-- A machine whose blanks are left out at three depths is refused for the same two causes. -/
theorem RecordKind.read_blanked_of_machine :
    let vitals (average : Value) : Value := .record [("load", .list [average, .list []])]
    let process (mem : List (Text × Value)) : Value := .record [("mem", .record mem)]
    let v : Value := .record [("vm_cid", .null), ("vitals", vitals .null),
      ("processes", .list [process [("kb", .text "")]])]
    let w : Value := .record [("vitals", vitals (.int 0)), ("processes", .list [process []])]
    Rewritten Blanked (.record .machine) [] v w ∧
      Record.Machine.read w =
        .invalid [⟨[.name "vitals", .name "load", .position 1], .numberType⟩,
          ⟨[.name "processes", .position 0, .name "name"], .missing⟩] := by
  intro vitals process v w
  let machine (average : Value) (processes : Value) : Value :=
    .record [("vitals", vitals average), ("processes", processes)]
  have zeroed : Rewritten Blanked (.record .vitals) [] (vitals .null) (vitals (.int 0)) :=
    .step (.zeroed [] [] rfl (.inl rfl) rfl rfl)
  have emptied : Rewritten Blanked (.record .processMem) [] (.record [("kb", .text "")])
      (.record []) :=
    .step (.omitted [] kbField_mem (by decide) (.inr ⟨rfl, by decide⟩) (by decide))
  have shorter : Rewritten Blanked (.list .process) [] (.list [process [("kb", .text "")]])
      (.list [process []]) :=
    .item [] (.inl rfl) (.field [] memField_mem rfl rfl emptied)
  have unnamed : Rewritten Blanked (.record .machine) [] v
      (machine .null (.list [process [("kb", .text "")]])) :=
    .step (.omitted [] idField_mem (by decide) (.inl ⟨rfl, by decide⟩) (by decide))
  have idle : Rewritten Blanked (.record .machine) []
      (machine .null (.list [process [("kb", .text "")]]))
      (machine (.int 0) (.list [process [("kb", .text "")]])) :=
    .field [] vitalsField_mem rfl rfl zeroed
  have small : Rewritten Blanked (.record .machine) []
      (machine (.int 0) (.list [process [("kb", .text "")]])) w :=
    .field [_] processesField_mem rfl rfl shorter
  have rewritten := unnamed.trans (idle.trans small)
  exact ⟨rewritten, (RecordKind.read_blanked _ _ _ rewritten).trans rfl⟩

end Deployments
