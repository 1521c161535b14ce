import Mathlib.Data.List.DropRight
import Deployments.Proofs.Reading.Kept

/-!
Readings that settle: what has been read is read again as itself, once it is written as a value.
-/

namespace Deployments.Reading

open Decimal

variable {α : Type}

/-- A value that has been read is read again from what it is written as. -/
def Settles (read : Value → Checked α) (write : α → Value) : Prop :=
  ∀ v a, read v = .ok a → read (write a) = .ok a

/-! ### Single values -/

theorem settles_text : Settles text .text := fun _ _ _ => rfl

theorem settles_versionText : Settles versionText .text := fun _ _ _ => rfl

theorem settles_boolean : Settles boolean .bool := fun _ _ _ => rfl

theorem settles_vital : Settles vital .float := fun _ _ _ => rfl

/-- Neither null nor the empty text is written for an integer, so none of them becomes zero. -/
theorem settles_measure : Settles (fun v => integer (blankAsZero v)) .int := fun _ _ _ => rfl

theorem settles_index : Settles (optional integer) fun x => (x.map Value.int).getD .null := by
  intro v x _
  cases x <;> rfl

/-! ### Lists and records -/

theorem Settles.items {read : Value → Checked α} {write : α → Value} (settles : Settles read write)
    {raw : List Value} {items : List α}
    (done : List.Forall₂ (fun v a => read v = .ok a) raw items) (i : Nat) :
    Checked.items read i (items.map write) = .ok items := by
  refine Checked.items_eq_ok_iff.mpr (List.forall₂_map_left_iff.mpr ?_)
  induction done with
  | nil => exact .nil
  | cons first _ ih => exact .cons (settles _ _ first) ih

theorem Settles.list {read : Value → Checked α} {write : α → Value} (settles : Settles read write) :
    Settles (list read) fun items => .list (items.map write) := by
  intro v items done
  exact settles.items (forall₂_listed done) 0

theorem Settles.record {title : String} {fields : Entries → Checked α} {write : α → Value}
    (settles : ∀ entries a, fields entries = .ok a →
      ∃ written, write a = .dict written ∧ fields written = .ok a) :
    Settles (record title fields) write := by
  intro v a done
  obtain ⟨entries, rfl, given⟩ := exists_entries_of_record done
  obtain ⟨written, same, again⟩ := settles entries a given
  rw [same]
  exact again

/-! ### Fields -/

namespace FieldReader

/-- What is read of the field is read again as itself, and so is what stands for it if it is
absent. -/
structure Settles (f : FieldReader α) (write : α → Value) : Prop where
  given : Reading.Settles f.read write
  absent : ∀ a, f.absent = some a → f.read (write a) = .ok a

theorem read_of_get {f : FieldReader α} {entries : Entries} {a : α}
    (done : f.get entries = .ok a) : (∃ v, f.read v = .ok a) ∨ f.absent = some a := by
  unfold get at done
  split at done
  next v _ => exact .inl ⟨v, Checked.under_eq_ok_iff.mp done⟩
  next =>
    split at done
    next absent =>
      cases done
      exact .inr absent
    next => cases done

/-- It does not matter under which of its keys the field is written. -/
theorem Settles.get {f : FieldReader α} {write : α → Value} (settles : f.Settles write)
    {entries written : Entries} {a : α} {key : Text} (done : f.get entries = .ok a)
    (given : f.given? written = some (key, write a)) : f.get written = .ok a := by
  unfold FieldReader.get
  rw [given]
  refine Checked.under_eq_ok_iff.mpr ?_
  rcases read_of_get done with ⟨v, read⟩ | absent
  · exact settles.given v a read
  · exact settles.absent a absent

theorem settles_required {key : Text} {read : Value → Checked α} {write : α → Value}
    (settles : Reading.Settles read write) : (required key read).Settles write :=
  ⟨settles, nofun⟩

theorem settles_optional {key : Text} {absent : α} {read : Value → Checked α}
    {write : α → Value} (settles : Reading.Settles read write)
    (stands : read (write absent) = .ok absent) : (optional key absent read).Settles write :=
  ⟨settles, fun _ same => Option.some.inj same ▸ stands⟩

end FieldReader

end Deployments.Reading

/-! ### Texts of the configuration -/

namespace Deployments

theorem Text.trimBy_trimBy {α : Type} (p : α → Bool) (cs : List α) :
    trimBy p (trimBy p cs) = trimBy p cs := by
  have same : ∀ cs, trimBy p cs = (cs.dropWhile p).rdropWhile p := fun _ => rfl
  -- The trimmed text is a first part of one whose first character is kept.
  have front : ((cs.dropWhile p).rdropWhile p).dropWhile p = (cs.dropWhile p).rdropWhile p := by
    have first := List.rdropWhile_prefix p (cs.dropWhile p)
    refine List.dropWhile_eq_self_iff.mpr fun given => ?_
    rw [first.getElem given]
    exact List.dropWhile_get_zero_not p cs (given.trans_le first.length_le)
  rw [same, same, front, List.rdropWhile_idempotent]

theorem Text.strip_strip (s : Text) : strip (strip s) = strip s := by
  rw [strip, strip_toList, Text.trimBy_trimBy, ← strip]

end Deployments
