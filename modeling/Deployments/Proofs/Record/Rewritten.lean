import Deployments.Proofs.Record.Fields

/-!
Raw values rewritten piece by piece. A step rewrites the entries of one record; a value is rewritten
by steps one after another, in records at any depth. If no step changes the reading of its record,
but for the places of defects, then neither does what is made of them.
-/

namespace Deployments

open Reading Renaming

/-- How the entries of a record of a kind are rewritten, and which keys are given another name. -/
abbrev RecordStep := RecordKind → List Renaming → Entries → Entries → Prop

inductive Rewritten (step : RecordStep) : Form → List Renaming → Value → Value → Prop where
  | refl {form : Form} {v : Value} : Rewritten step form [] v v
  | trans {form : Form} {first second : List Renaming} {u v w : Value} :
    Rewritten step form first u v → Rewritten step form second v w →
      Rewritten step form (first ++ second) u w
  | step {kind : RecordKind} {renamings : List Renaming} {entries others : Entries} :
    step kind renamings entries others →
      Rewritten step (.record kind) renamings (.dict entries) (.dict others)
  | field {kind : RecordKind} {field : RecordField} {inner : Form} {renamings : List Renaming}
    (before : Entries) {after : Entries} {v w : Value} :
    field ∈ kind.fields → inner ∈ field.form → before.field? field.reader.key = none →
      Rewritten step inner renamings v w →
      Rewritten step (.record kind) (renamings.map (within (.name field.reader.key)))
        (.dict (before ++ (.text field.reader.key, v) :: after))
        (.dict (before ++ (.text field.reader.key, w) :: after))
  | item {kind : RecordKind} {row : List Value → Value} {renamings : List Renaming}
    (before : List Value) {after : List Value} {v w : Value} :
    row = .list ∨ row = .tuple → Rewritten step (.record kind) renamings v w →
      Rewritten step (.list kind) (renamings.map (within (.position before.length)))
        (row (before ++ v :: after)) (row (before ++ w :: after))
  | disk (before : Entries) {after : Entries} {key v w : Value} :
    Rewritten step (.record .disk) [] v w →
      Rewritten step .disks [] (.dict (before ++ (key, v) :: after))
        (.dict (before ++ (key, w) :: after))

/-- A step leaves the reading of its record as it was, but for the places of the defects. -/
def RecordStep.Sound (step : RecordStep) : Prop :=
  ∀ kind renamings entries others, step kind renamings entries others →
    kind.read (.dict others) = (kind.read (.dict entries)).mapPaths (along renamings)

theorem Record.Disks.readEntries_congr {before after : Entries} {key v w : Value}
    (same : Disk.read w = Disk.read v) :
    readEntries (before ++ (key, w) :: after) = readEntries (before ++ (key, v) :: after) := by
  induction before with
  | nil => rw [List.nil_append, List.nil_append, readEntries, readEntries, same]
  | cons entry rest ih => rw [List.cons_append, List.cons_append, readEntries, readEntries, ih]

theorem RecordKind.read_given {kind : RecordKind} {field : RecordField} {before after : Entries}
    {v w : Value} (renamings : List Renaming) (member : field ∈ kind.fields)
    (first : before.field? field.reader.key = none)
    (same : field.reader.read w = (field.reader.read v).mapPaths (along renamings)) :
    kind.read (.dict (before ++ (.text field.reader.key, w) :: after)) =
      (kind.read (.dict (before ++ (.text field.reader.key, v) :: after))).mapPaths
        (along (renamings.map (within (.name field.reader.key)))) := by
  refine kind.read_mapPaths fun other its => ?_
  by_cases own : other = field
  · subst own
    refine FieldReader.get_mapPaths (FieldReader.given?_own (Entries.field?_between_self first))
      (FieldReader.given?_own (Entries.field?_between_self first)) (fun inner => ?_) same
    rw [along_within, if_pos rfl]
  -- The other fields are given as before, and their defects stand under other keys.
  · have apart (key : Text) (its' : key ∈ other.keys) :
        Value.text field.reader.key ≠ .text key :=
      RecordKind.text_ne_of_ne member its own field.reader.key_mem_keys its'
    refine FieldReader.get_mapPaths_self (fun key its' => ?_) fun key its' inner => ?_
    · have distinct := apart key its'
      rw [Entries.field?_between_of_ne distinct, Entries.field?_between_of_ne distinct]
    · rw [along_within, if_neg (by simpa using apart key its')]

namespace Rewritten

variable {step : RecordStep} {form : Form} {renamings : List Renaming} {v w : Value}

theorem null_iff (rewritten : Rewritten step form renamings v w) : v = .null ↔ w = .null := by
  induction rewritten with
  | refl => exact Iff.rfl
  | trans _ _ first second => exact first.trans second
  | step | field | disk => exact ⟨nofun, nofun⟩
  | item _ row =>
    rcases row with rfl | rfl
    · exact ⟨nofun, nofun⟩
    · exact ⟨nofun, nofun⟩

theorem read_item {kind : RecordKind} {row : List Value → Value} {before after : List Value}
    (walked : row = .list ∨ row = .tuple)
    (same : kind.read w = (kind.read v).mapPaths (along renamings)) :
    list kind.read (row (before ++ w :: after)) =
      (list kind.read (row (before ++ v :: after))).mapPaths
        (along (renamings.map (within (.position before.length)))) := by
  have items : Checked.items kind.read 0 (before ++ w :: after) =
      (Checked.items kind.read 0 (before ++ v :: after)).mapPaths
        (along (renamings.map (within (.position before.length)))) := by
    refine Checked.items_mapPaths (fun j inner => ?_) same
    rw [along_within, Nat.zero_add]
    by_cases own : j = before.length
    · rw [if_pos own, if_pos (by rw [own])]
    · have distinct : Place.position before.length ≠ .position j := by
        rw [ne_eq, Place.position.injEq]
        omega
      rw [if_neg own, if_neg distinct]
  rcases walked with rfl | rfl
  · exact items
  · exact items

/-- What is read of a rewritten value is what was read of the value, with its defects moved along
the renamings. -/
theorem read (sound : step.Sound) (rewritten : Rewritten step form renamings v w) :
    form.read w = (form.read v).mapPaths (along renamings) := by
  induction rewritten with
  | refl => rw [Checked.mapPaths_along_nil]
  | trans _ _ first second => rw [second, first, Checked.mapPaths_mapPaths, along_append]
  | step stepped => exact sound _ _ _ _ stepped
  | field _ member nested first inner same =>
    have moved := RecordField.follows _ _ nested _ _ _ inner.null_iff same
    exact RecordKind.read_given _ member first moved
  | item _ walked _ same => exact read_item walked same
  | disk _ _ same =>
    rw [Checked.mapPaths_along_nil] at same ⊢
    exact congrArg (Checked.map _) (Record.Disks.readEntries_congr same)

end Rewritten

end Deployments
