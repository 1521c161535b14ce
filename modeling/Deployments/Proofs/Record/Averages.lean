import Deployments.Proofs.Inventory.Entries
import Deployments.Proofs.Record.Blanked
import Deployments.Proofs.Source

/-!
The load averages of a machine. They are read as they should be if they are given as a row, as null,
or not at all. Any other value is walked through as it is: texts by their characters, bytes by their
numbers and mappings by their keys, and what cannot be walked through stops the reading.
-/

namespace Deployments

open Reading Decimal

namespace Reading

variable {α β : Type}

namespace Checked

/-- Nothing is wrong with what stands under the key. -/
def Accepts (x : Checked α) (key : Text) : Prop :=
  ¬ x.Aborts ∧ ∀ d ∈ x.defects, d.path.head? ≠ some (.name key)

@[simp] theorem defects_fmap (f : α → β) (x : Checked α) : (f <$> x).defects = x.defects := by
  cases x <;> rfl

@[simp] theorem defects_map (f : α → β) (x : Checked α) : (x.map f).defects = x.defects := by
  cases x <;> rfl

@[simp] theorem defects_under (place : Place) (x : Checked α) :
    (x.under place).defects = x.defects.map (·.under place) := by
  cases x <;> rfl

theorem defects_seq {f : Checked (α → β)} {x : Unit → Checked α} (finishes : ¬ (seq f x).Aborts) :
    (seq f x).defects = f.defects ++ (x ()).defects := by
  cases f with
  | ok g => exact defects_map g (x ())
  | invalid ds => cases given : x () <;> simp_all [seq, defects]
  | aborted fault => exact absurd (aborts_aborted fault) finishes

theorem defects_items {read : Value → Checked α} {i : Nat} {raw : List Value}
    (finishes : ∀ v ∈ raw, ¬ (read v).Aborts) :
    (items read i raw).defects = itemDefects read i raw := by
  induction raw generalizing i with
  | nil => rfl
  | cons v rest ih =>
    have whole : ¬ (items read i (v :: rest)).Aborts := by
      rw [aborts_items]
      rintro ⟨u, member, aborts⟩
      exact finishes u member aborts
    rw [items] at whole ⊢
    rw [defects_seq whole, defects_map, defects_under, itemDefects_cons,
      ih (List.forall_mem_cons.mp finishes).2]

theorem mem_itemDefects_iff {read : Value → Checked α} {i : Nat} {raw : List Value} {d : Defect} :
    d ∈ itemDefects read i raw ↔ ∃ (j : Nat) (v : Value), raw[j]? = some v ∧
      ∃ inner ∈ (read v).defects, inner.under (.position (i + j : Nat)) = d := by
  simp only [itemDefects, List.mem_flatten, List.mem_mapIdx, List.getElem?_eq_some_iff]
  constructor
  · rintro ⟨_, ⟨j, inside, rfl⟩, member⟩
    exact ⟨j, _, ⟨inside, rfl⟩, List.mem_map.mp member⟩
  · rintro ⟨j, _, ⟨inside, rfl⟩, member⟩
    exact ⟨_, ⟨j, inside, rfl⟩, List.mem_map.mpr member⟩

end Checked

theorem FieldReader.path_of_get {f : FieldReader α} {entries : Entries} :
    ∀ d ∈ (f.get entries).defects, ∃ key ∈ f.keys, d.path.head? = some (.name key) := by
  intro d member
  unfold get at member
  split at member
  next key v given =>
    rw [Checked.defects_under] at member
    obtain ⟨inner, _, rfl⟩ := List.mem_map.mp member
    exact ⟨key, mem_keys_of_given? given, rfl⟩
  next =>
    split at member
    next => cases member
    next =>
      cases List.mem_singleton.mp member
      exact ⟨f.key, f.key_mem_keys, rfl⟩

end Reading

namespace RecordKind

open Checked

theorem Takes.mem_defects_iff {α : Type} {fields : List RecordField} {read : Entries → Checked α}
    (takes : Takes fields read) {entries : Entries} (finishes : ¬ (read entries).Aborts)
    (d : Defect) :
    d ∈ (read entries).defects ↔ ∃ field ∈ fields, d ∈ (field.reader.get entries).defects := by
  induction takes with
  | first make => simp
  | @next _ field fields read _ ih =>
    have first := mt (fun aborts => aborts_seq.mpr (.inl aborts)) finishes
    have both : (read entries <*> field.reader.get entries).defects =
        (read entries).defects ++ (field.reader.get entries).defects := defects_seq finishes
    beta_reduce
    rw [both, List.mem_append, ih first, List.exists_mem_cons_iff, or_comm]

/-- The defects of a record under a key are those of the field that is given under it. -/
theorem mem_defects_under_iff {kind : RecordKind} {field : RecordField} {entries : Entries}
    {key : Text} {v : Value} (member : field ∈ kind.fields)
    (given : field.reader.given? entries = some (key, v))
    (finishes : ¬ (kind.read (.dict entries)).Aborts) (d : Defect) :
    d ∈ (kind.read (.dict entries)).defects ∧ d.path.head? = some (.name key) ↔
      ∃ inner ∈ (field.reader.read v).defects, d = inner.under (.name key) := by
  obtain ⟨read, same, takes⟩ := kind.exists_takes
  rw [same] at finishes ⊢
  have own : (field.reader.get entries).defects =
      (field.reader.read v).defects.map (·.under (.name key)) := by
    rw [FieldReader.get_of_given given, defects_under]
  constructor
  · rintro ⟨inside, head⟩
    obtain ⟨other, its, inside⟩ := (takes.mem_defects_iff finishes d).mp inside
    obtain ⟨name, named, head'⟩ := FieldReader.path_of_get d inside
    have equal : key = name := by simpa using head.symm.trans head'
    -- No other field has the key.
    have mine : other = field := by
      by_contra distinct
      exact RecordKind.text_ne_of_ne member (List.mem_reverse.mp its) distinct
        (FieldReader.mem_keys_of_given? given) named (congrArg Value.text equal)
    subst mine
    rw [own] at inside
    obtain ⟨inner, found, rfl⟩ := List.mem_map.mp inside
    exact ⟨inner, found, rfl⟩
  · rintro ⟨inner, found, rfl⟩
    refine ⟨(takes.mem_defects_iff finishes _).mpr ⟨field, List.mem_reverse.mpr member, ?_⟩, rfl⟩
    rw [own]
    exact List.mem_map.mpr ⟨inner, found, rfl⟩

end RecordKind

/-- The value is a row of items. -/
def Value.isRow : Value → Bool
  | list _ | tuple _ | set _ => true
  | _ => false

theorem Value.items?_of_isRow {v : Value} (row : v.isRow = true) : v.items? = some v.listed := by
  cases v with
  | list | tuple | set => rfl
  | _ => cases row

namespace Record

open Checked

/-- A load average as it is given, and the number that it is. -/
inductive IsAverage : Value → Binary64 → Prop where
  | null : IsAverage .null noNumber
  | blank : IsAverage (.text "") noNumber
  | number {v : Value} {x : Binary64} : Reading.number v = .ok x → IsAverage v x

theorem vital_eq_ok_iff {v : Value} {x : Binary64} : vital v = .ok x ↔ IsAverage v x := by
  have zero : Binary64.ofInt 0 = noNumber := by decide
  unfold vital blankAsZero
  split
  next =>
    constructor
    · rintro ⟨⟩
      exact .null
    · rintro (_ | _ | ⟨⟨⟩⟩)
      rfl
  next s =>
    split
    next empty =>
      obtain rfl := Text.isEmpty_iff.mp empty
      constructor
      · rintro ⟨⟩
        exact .blank
      · rintro (_ | _ | given)
        · rfl
        · cases given
    next filled =>
      refine ⟨.number, ?_⟩
      rintro (_ | _ | given)
      · exact absurd rfl filled
      · exact given
  next _ filled other =>
    refine ⟨.number, ?_⟩
    rintro (_ | _ | given)
    · exact absurd rfl filled
    · exact absurd rfl (other "")
    · exact given

theorem defects_vital_eq_nil_iff {v : Value} : (vital v).defects = [] ↔ ∃ x, IsAverage v x := by
  simp only [← vital_eq_ok_iff]
  unfold vital number numberText ofCharacters
  repeat' (first | split | dsimp only)
  all_goals simp [defects, refused]

namespace Vitals

/-- Load averages are read one by one from a row, and from nothing else. -/
structure ReadsAverages (payload : Value) : Prop where
  finishes : ¬ (read payload).Aborts
  accepts : ∀ load, payload.at? "load" = some load → ((read payload).Accepts "load" ↔
    load = .null ∨ load.isRow = true ∧ ∀ item ∈ load.listed, ∃ x, IsAverage item x)
  load : ∀ r, read payload = .ok r →
    List.Forall₂ IsAverage (((payload.at? "load").map Value.listed).getD []) r.load
  reports : ∀ load, payload.at? "load" = some load → load ≠ .null → load.isRow = false →
    ∃ d ∈ (read payload).defects, d.path = [.name "load"]

variable {payload load : Value}

theorem mem_defects_load_iff (given : payload.at? "load" = some load)
    (finishes : ¬ (read payload).Aborts) (d : Defect) :
    d ∈ (read payload).defects ∧ d.path.head? = some (.name "load") ↔
      ∃ inner ∈ (readLoad load).defects, d = inner.under (.name "load") := by
  cases payload with
  | dict entries =>
    exact RecordKind.mem_defects_under_iff RecordKind.loadField_mem
      (FieldReader.given?_own (f := loadField.reader) given) finishes d
  | _ => cases given

theorem readLoad_of_isRow (row : load.isRow = true) :
    readLoad load = items vital 0 load.listed :=
  readLoad_of_items (Value.items?_of_isRow row)

theorem accepts_iff (given : payload.at? "load" = some load) (finishes : ¬ (read payload).Aborts) :
    (read payload).Accepts "load" ↔ (readLoad load).defects = [] := by
  rw [Accepts, and_iff_right finishes, List.eq_nil_iff_forall_not_mem]
  constructor
  · intro accepted inner member
    obtain ⟨inside, head⟩ :=
      (mem_defects_load_iff given finishes _).mpr ⟨inner, member, rfl⟩
    exact accepted _ inside head
  · intro none d member head
    obtain ⟨inner, found, _⟩ := (mem_defects_load_iff given finishes d).mp ⟨member, head⟩
    exact none inner found

theorem defects_row_eq_nil_iff (row : load.isRow = true) :
    (readLoad load).defects = [] ↔ ∀ item ∈ load.listed, ∃ x, IsAverage item x := by
  rw [readLoad_of_isRow row, defects_items fun _ _ => aborts_vital _,
    List.eq_nil_iff_forall_not_mem]
  simp only [← defects_vital_eq_nil_iff, mem_itemDefects_iff]
  constructor
  · intro none item member
    obtain ⟨j, found⟩ := List.mem_iff_getElem?.mp member
    exact List.eq_nil_iff_forall_not_mem.mpr fun inner wrong =>
      none _ ⟨j, item, found, inner, wrong, rfl⟩
  · rintro fine d ⟨j, item, found, inner, wrong, _⟩
    rw [fine item (List.mem_of_getElem? found)] at wrong
    cases wrong

/-- A load that is walked through has no defect at its own place. -/
theorem path_ne_nil_of_walked {raw : List Value} (walked : load.items? = some raw) :
    ∀ inner ∈ (readLoad load).defects, inner.path ≠ [] := by
  rw [readLoad_of_items walked, defects_items fun _ _ => aborts_vital _]
  intro inner member
  obtain ⟨_, _, _, _, _, rfl⟩ := mem_itemDefects_iff.mp member
  exact List.cons_ne_nil _ _

theorem forall₂_load {r : Vitals} (done : read payload = .ok r)
    (rows : ∀ load, payload.at? "load" = some load → load = .null ∨ load.isRow = true) :
    List.Forall₂ IsAverage (((payload.at? "load").map Value.listed).getD []) r.load := by
  obtain ⟨entries, rfl, fields⟩ := exists_entries_of_record done
  simp only [eq_ok_iff_exists (a := r), exists_seq_iff, exists_map_iff] at fields
  obtain ⟨_, _, _, _, _, _, _, _, averages, load, _, _, rfl⟩ := fields
  rcases FieldReader.get_optional load with ⟨missing, rfl⟩ | ⟨raw, given, load⟩
  · simp only [Value.at?, missing]
    exact .nil
  · simp only [Value.at?, given]
    rcases rows raw given with rfl | row
    · cases load
      exact .nil
    · rw [readLoad_of_isRow row, items_eq_ok_iff] at load
      exact load.imp fun _ _ => vital_eq_ok_iff.mp

/-- Load averages are read as they should be exactly if they are given as a row or not at all. -/
theorem readsAverages_iff (payload : Value) :
    ReadsAverages payload ↔
      ∀ load, payload.at? "load" = some load → load = .null ∨ load.isRow = true := by
  constructor
  · intro reads load given
    by_contra other
    rw [not_or, Bool.not_eq_true] at other
    obtain ⟨d, member, path⟩ := reads.reports load given other.1 other.2
    obtain ⟨inner, found, rfl⟩ :=
      (mem_defects_load_iff given reads.finishes d).mp ⟨member, by rw [path]; rfl⟩
    cases walked : load.items? with
    | none => exact reads.finishes (aborts_read.mpr ⟨load, given, other.1, walked⟩)
    | some raw => exact path_ne_nil_of_walked walked inner found (List.cons.inj path).2
  · intro rows
    have finishes : ¬ (read payload).Aborts := by
      rintro aborts
      obtain ⟨load, given, filled, walked⟩ := aborts_read.mp aborts
      rcases rows load given with null | row
      · exact filled null
      · rw [Value.items?_of_isRow row] at walked
        cases walked
    refine ⟨finishes, fun load given => ?_, fun r done => forall₂_load done rows, ?_⟩
    · rw [accepts_iff given finishes]
      rcases rows load given with rfl | row
      · simp [readLoad, defects]
      · rw [defects_row_eq_nil_iff row]
        have filled : load ≠ .null := by
          rintro rfl
          cases row
        simp [row, filled]
    · intro load given filled other
      rcases rows load given with null | row
      · exact absurd null filled
      · rw [row] at other
        cases other

/-- A text is read digit by digit, a mapping key by key, and a number ends the reading. -/
theorem not_readsAverages_of_text :
    let given (load : Value) : Value := .record [("load", load)]
    let averages (load : List Int) : Vitals := { absent with load := load.map .ofInt }
    (read (given (.text "12")) = .ok (averages [1, 2]) ∧ ¬ ReadsAverages (given (.text "12"))) ∧
      (read (given (.record [("5", .null)])) = .ok (averages [5]) ∧
        ¬ ReadsAverages (given (.record [("5", .null)]))) ∧
      read (given (.int 5)) = .aborted (.notIterable "int") ∧ ¬ ReadsAverages (given (.int 5)) := by
  intro given averages
  have refuted (load : Value) (filled : load ≠ .null) (other : load.isRow = false) :
      ¬ ReadsAverages (given load) := by
    rw [readsAverages_iff]
    intro rows
    rcases rows load rfl with null | row
    · exact filled null
    · rw [other] at row
      cases row
  refine ⟨⟨by decide, ?_⟩, ⟨by decide, ?_⟩, by decide, ?_⟩
  · exact refuted _ nofun rfl
  · exact refuted _ nofun rfl
  · exact refuted _ nofun rfl

end Vitals

end Record

end Deployments
