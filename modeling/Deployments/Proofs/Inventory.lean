import Deployments.Proofs.Record.Kept
import Deployments.Proofs.Selection
import Deployments.Source

/-!
What inventories keep of documents. A property of the integers and numbers that are read from a
document is one of those of all machines in the inventory, and of the entries selected of it.
-/

namespace Deployments

open Decimal Reading

theorem Source.fields_of_named {α : Type} {title reader : String} {fields : Entries → Checked α}
    {v : Value} {a : α} (done : named title reader fields v = .ok a) :
    ∃ entries, v = .dict entries ∧ fields entries = .ok a := by
  unfold named at done
  split at done
  next entries =>
    split at done
    next =>
      split at done
      next read =>
        cases done
        exact ⟨entries, rfl, read⟩
      next => cases done
      next => cases done
    next => cases done
  next => cases done

theorem Source.all_orEmpty {p : Value → Prop} {v : Value} (empty : p (.dict [])) (all : v.All p) :
    (orEmpty v).All p := by
  unfold orEmpty
  split
  next => exact all
  next => exact Value.all_dict empty (List.forall_mem_nil _)

namespace Inventory

variable {p : Value → Prop} {whole : Int → Prop} {good : Binary64 → Prop}

section Loading

variable (admits : Admits p whole good)

include admits

theorem Entry.keeps_read : Keeps p Entry.read fun entry =>
    ∀ r ∈ entry.instances, r.IsGood whole good := by
  refine .record fun entries entry all done => ?_
  simp only [Checked.eq_ok_iff_exists (a := entry), Checked.exists_seq_iff,
    Checked.exists_map_iff] at done
  obtain ⟨_, _, _, _, _, instances, _, _, _, _, rfl⟩ := done
  exact FieldReader.good_of_optional (Record.Machine.keeps_read admits).list (List.forall_mem_nil _)
    all instances

theorem keeps_read : Keeps p read fun inventory =>
    ∀ entry ∈ inventory.deployments, ∀ r ∈ entry.instances, r.IsGood whole good := by
  refine .record fun entries inventory all done => ?_
  simp only [readFields, Checked.eq_ok_iff_exists (a := inventory),
    Checked.exists_map_iff] at done
  obtain ⟨_, deployments, rfl⟩ := done
  exact FieldReader.good_of_optional (Entry.keeps_read admits).list (List.forall_mem_nil _)
    all deployments

theorem good_of_ofValue {document : Value} {inventory : Inventory} (all : document.All p)
    (accepted : ofValue document = .ok inventory) :
    ∀ entry ∈ inventory.deployments, ∀ r ∈ entry.instances, r.IsGood whole good := by
  have given := Source.all_orEmpty admits.emptyDict all
  obtain ⟨entries, same, fields⟩ := Source.fields_of_named accepted
  rw [same] at given
  exact keeps_read admits (.dict entries) inventory given fields

theorem good_of_load {files : Files} {order : SetOrder} {path : Text}
    {document : Value} {inventory : Inventory}
    (read : Source.read files order "Inventory" path = .ok document)
    (all : document.All p) (loaded : load files order path = .ok inventory) :
    ∀ entry ∈ inventory.deployments, ∀ r ∈ entry.instances, r.IsGood whole good := by
  rw [load, read] at loaded
  exact good_of_ofValue admits all loaded

end Loading

/-! ### Selection -/

theorem mem_of_mem_record (entries : List Entry) (new entry : Entry)
    (member : entry ∈ record entries new) : entry = new ∨ entry ∈ entries := by
  induction entries with
  | nil => exact .inl (List.mem_singleton.mp member)
  | cons old rest ih =>
    rw [record] at member
    split at member
    · rcases List.mem_cons.mp member with same | later
      · exact .inl same
      · exact .inr (List.mem_cons_of_mem _ later)
    · rcases List.mem_cons.mp member with same | later
      · exact .inr (same ▸ List.mem_cons_self)
      · exact (ih later).imp_right (List.mem_cons_of_mem _)

theorem mem_of_mem_known {inventory : Inventory} {entry : Entry}
    (member : entry ∈ inventory.known) : entry ∈ inventory.deployments := by
  rcases mem_of_mem_foldl mem_of_mem_record member with member | none_
  · exact member
  · cases none_

theorem mem_of_selected? {inventory : Inventory} {names : List Text} {entries : List Entry}
    (selected : inventory.selected? names = some entries) {entry : Entry}
    (member : entry ∈ entries) : entry ∈ inventory.deployments := by
  rw [selected?] at selected
  split at selected
  next =>
    cases selected
    exact mem_of_mem_known member
  next =>
    obtain ⟨name, _, found⟩ := exists_of_mem_mapM selected member
    exact mem_of_mem_known (List.mem_of_find?_eq_some found)

end Inventory

end Deployments
