import Deployments.Proofs.Config

/-!
Which readings a fault stops. A reading of parts is stopped exactly if that of one of them is; a
single value is read, or refused, without a fault.
-/

namespace Deployments.Reading

variable {α β : Type}

namespace Checked

def Aborts (x : Checked α) : Prop := ∃ fault, x = aborted fault

@[simp] theorem aborts_ok (a : α) : ¬ (ok a).Aborts := nofun

@[simp] theorem aborts_invalid (defects : List Defect) :
    ¬ (invalid defects : Checked α).Aborts := nofun

@[simp] theorem aborts_refused (cause : Cause) : ¬ (refused cause : Checked α).Aborts := nofun

@[simp] theorem aborts_aborted (fault : Fault) : (aborted fault : Checked α).Aborts := ⟨fault, rfl⟩

@[simp] theorem aborts_map {f : α → β} {x : Checked α} : (x.map f).Aborts ↔ x.Aborts := by
  cases x <;> simp [map]

@[simp] theorem aborts_fmap {f : α → β} {x : Checked α} : (f <$> x).Aborts ↔ x.Aborts := aborts_map

@[simp] theorem aborts_under {place : Place} {x : Checked α} :
    (x.under place).Aborts ↔ x.Aborts := by
  cases x <;> simp [under]

theorem aborts_seq_thunk {f : Checked (α → β)} {x : Unit → Checked α} :
    (seq f x).Aborts ↔ f.Aborts ∨ (x ()).Aborts := by
  cases f with
  | ok g => simp [seq]
  | invalid defects => cases given : x () <;> simp [seq, given]
  | aborted fault => simp [seq]

@[simp] theorem aborts_seq {f : Checked (α → β)} {x : Checked α} :
    (f <*> x).Aborts ↔ f.Aborts ∨ x.Aborts := aborts_seq_thunk

theorem aborts_items {read : Value → Checked α} {i : Nat} {raw : List Value} :
    (items read i raw).Aborts ↔ ∃ v ∈ raw, (read v).Aborts := by
  induction raw generalizing i with
  | nil => simp [items]
  | cons v rest ih => simp [items, aborts_seq_thunk, ih]

end Checked

open Checked

/-! ### Single values -/

@[simp] theorem aborts_text (v : Value) : ¬ (text v).Aborts := by
  unfold text
  repeat' split
  all_goals simp

theorem aborts_ofCharacters {read : String → Checked α} (finishes : ∀ s, ¬ (read s).Aborts)
    (t : Text) : ¬ (ofCharacters read t).Aborts := by
  unfold ofCharacters
  split <;> simp [finishes]

@[simp] theorem aborts_numberText (s : String) : ¬ (numberText s).Aborts := by
  unfold numberText
  split <;> simp

@[simp] theorem aborts_number (v : Value) : ¬ (number v).Aborts := by
  unfold number
  repeat' (first | split | dsimp only)
  all_goals simp [aborts_ofCharacters]

@[simp] theorem aborts_integerText (s : String) : ¬ (integerText s).Aborts := by
  unfold integerText
  repeat' split
  all_goals simp

@[simp] theorem aborts_integer (v : Value) : ¬ (integer v).Aborts := by
  unfold integer integerOfNumber
  repeat' split
  all_goals simp [aborts_ofCharacters]

@[simp] theorem aborts_truthText (s : String) : ¬ (truthText s).Aborts := by
  unfold truthText
  repeat' (first | split | dsimp only)
  all_goals simp

@[simp] theorem aborts_boolean (v : Value) : ¬ (boolean v).Aborts := by
  unfold boolean truthOfInteger
  repeat' (first | split | dsimp only)
  all_goals simp [aborts_ofCharacters]

@[simp] theorem aborts_versionText (v : Value) : ¬ (versionText v).Aborts := by
  unfold versionText
  repeat' split
  all_goals simp

@[simp] theorem aborts_vital (v : Value) : ¬ (vital v).Aborts := aborts_number _

theorem aborts_optional {read : Value → Checked α} (finishes : ∀ v, ¬ (read v).Aborts)
    (v : Value) : ¬ (optional read v).Aborts := by
  unfold optional
  split <;> simp [finishes]

@[simp] theorem aborts_optional_integer (v : Value) : ¬ (optional integer v).Aborts :=
  aborts_optional aborts_integer v

/-! ### Lists, fields and records -/

theorem aborts_list {read : Value → Checked α} {v : Value} :
    (list read v).Aborts ↔ ∃ item ∈ v.listed, (read item).Aborts := by
  cases v with
  | list | tuple | set => exact aborts_items
  | _ => simp [list, Value.listed]

namespace FieldReader

theorem aborts_get {f : FieldReader α} {entries : Entries} :
    (f.get entries).Aborts ↔ ∃ key v, f.given? entries = some (key, v) ∧ (f.read v).Aborts := by
  unfold get
  split
  next given => simp [given]
  next missing =>
    rw [missing]
    split <;> simp

@[simp] theorem aborts_optional {key : Text} {absent : α} {read : Value → Checked α}
    {entries : Entries} :
    ((optional key absent read).get entries).Aborts ↔
      ∃ v, (Value.dict entries).at? key = some v ∧ (read v).Aborts := by
  rw [aborts_get, Value.at?]
  cases given : entries.field? key <;> simp [optional, given?, given]

@[simp] theorem aborts_required {key : Text} {read : Value → Checked α} {entries : Entries} :
    ((required key read).get entries).Aborts ↔
      ∃ v, (Value.dict entries).at? key = some v ∧ (read v).Aborts := by
  rw [aborts_get, Value.at?]
  cases given : entries.field? key <;> simp [required, given?, given]

theorem not_aborts_get {f : FieldReader α} (finishes : ∀ v, ¬ (f.read v).Aborts)
    (entries : Entries) : ¬ (f.get entries).Aborts := by
  rw [aborts_get]
  rintro ⟨_, v, _, aborts⟩
  exact finishes v aborts

end FieldReader

theorem aborts_record {title : String} {fields : Entries → Checked α} {v : Value} :
    (record title fields v).Aborts ↔ ∃ entries, v = .dict entries ∧ (fields entries).Aborts := by
  cases v <;> simp [record]

theorem not_aborts_record {title : String} {fields : Entries → Checked α}
    (finishes : ∀ entries, ¬ (fields entries).Aborts) (v : Value) :
    ¬ (record title fields v).Aborts := by
  rw [aborts_record]
  rintro ⟨entries, _, aborts⟩
  exact finishes entries aborts

end Deployments.Reading
