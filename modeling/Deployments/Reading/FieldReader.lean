import Deployments.Reading.Scalar

/-!
Fields of records. A field has a key, may have an alternative one, and may be absent if it has a
value to stand for it. Keys that no field names are passed over. A defect of a field stands under
the key that the value was given under.
-/

namespace Deployments.Reading

structure FieldReader (α : Type) where
  key : Text
  alternative : Option Text
  absent : Option α
  read : Value → Checked α

namespace FieldReader

variable {α : Type}

def required (key : Text) (read : Value → Checked α) : FieldReader α := ⟨key, none, none, read⟩

/-- A field that may be left out. -/
def optional (key : Text) (absent : α) (read : Value → Checked α) : FieldReader α :=
  ⟨key, none, some absent, read⟩

/-- The field may also be given under another key, which counts only if its own is not there. -/
def orUnder (f : FieldReader α) (other : Text) : FieldReader α :=
  { f with alternative := some other }

/-- The raw value of the field and the key it is given under. -/
def given? (f : FieldReader α) (entries : Entries) : Option (Text × Value) :=
  match entries.field? f.key with
  | some v => some (f.key, v)
  | none => f.alternative.bind fun other => (entries.field? other).map fun v => (other, v)

def get (f : FieldReader α) (entries : Entries) : Checked α :=
  match f.given? entries with
  | some (key, v) => (f.read v).under (.name key)
  | none => match f.absent with
    | some a => .ok a
    | none => (Checked.refused .missing).under (.name f.key)

end FieldReader

def record {α : Type} (title : String) (fields : Entries → Checked α) : Value → Checked α
  | .dict entries => fields entries
  | _ => .refused (.recordType title)

end Deployments.Reading
