import Deployments.Proofs.Order
import Deployments.Proofs.Reading.Aborted

/-!
Inventories entry by entry. What a list of raw entries comes to is settled by what each of them
comes to alone: the first fault counts, else all defects together, else all entries.
-/

namespace Deployments

open Reading

namespace Reading.Checked

variable {α β : Type} {read : Value → Checked α}

def defects : Checked α → List Defect
  | invalid defects => defects
  | _ => []

def isOk : Checked α → Bool
  | ok _ => true
  | _ => false

/-- A list of items is aborted by the first of them that is, whatever is wrong with the others. -/
theorem items_aborted {i : Nat} {before after : List Value} {v : Value} {fault : Fault}
    (first : ∀ u ∈ before, ¬ (read u).Aborts) (aborted : read v = .aborted fault) :
    items read i (before ++ v :: after) = .aborted fault := by
  induction before generalizing i with
  | nil => simp [items, aborted, under, map, seq]
  | cons u rest ih =>
    rw [List.forall_mem_cons] at first
    rw [List.cons_append, items, ih first.2]
    cases given : read u with
    | ok a => simp [under, map, seq]
    | invalid defects => simp [under, map, seq]
    | aborted fault => exact (first.1 ⟨fault, given⟩).elim

theorem items_ok_of_isOk {i : Nat} {raw : List Value} (done : ∀ v ∈ raw, (read v).isOk = true) :
    ∃ found, items read i raw = .ok found := by
  induction raw generalizing i with
  | nil => exact ⟨[], rfl⟩
  | cons v rest ih =>
    rw [List.forall_mem_cons] at done
    obtain ⟨found, later⟩ := ih (i := i + 1) done.2
    cases given : read v with
    | ok a => exact ⟨a :: found, by simp [items, given, later, under, map, seq]⟩
    | invalid | aborted => simp [isOk, given] at done

theorem isOk_of_forall₂ {raw : List Value} {found : List α}
    (done : List.Forall₂ (fun v a => read v = .ok a) raw found) :
    ∀ v ∈ raw, (read v).isOk = true := by
  induction done with
  | nil => nofun
  | cons first _ ih => exact List.forall_mem_cons.mpr ⟨by rw [first, isOk], ih⟩

theorem defects_of_isOk {x : Checked α} (done : x.isOk = true) : x.defects = [] := by
  cases x <;> simp_all [isOk, defects]

/-- The defects of items from a position on, each under the position of its item. -/
def itemDefects (read : Value → Checked α) (i : Nat) (raw : List Value) : List Defect :=
  (raw.mapIdx fun j v => (read v).defects.map (·.under (.position (i + j : Nat)))).flatten

theorem itemDefects_cons (i : Nat) (v : Value) (rest : List Value) :
    itemDefects read i (v :: rest) =
      (read v).defects.map (·.under (.position i)) ++ itemDefects read (i + 1) rest := by
  simp [itemDefects, List.mapIdx_cons, Nat.add_comm, Nat.add_left_comm]

theorem itemDefects_of_isOk {i : Nat} {raw : List Value} (done : ∀ v ∈ raw, (read v).isOk = true) :
    itemDefects read i raw = [] := by
  induction raw generalizing i with
  | nil => rfl
  | cons v rest ih =>
    rw [List.forall_mem_cons] at done
    rw [itemDefects_cons, ih done.2, defects_of_isOk done.1]
    rfl

theorem items_invalid {i : Nat} {raw : List Value} (finishes : ∀ v ∈ raw, ¬ (read v).Aborts)
    (wrong : ∃ v ∈ raw, (read v).isOk = false) :
    items read i raw = .invalid (itemDefects read i raw) := by
  induction raw generalizing i with
  | nil => simp at wrong
  | cons v rest ih =>
    rw [List.forall_mem_cons] at finishes
    rw [itemDefects_cons, items]
    by_cases done : ∀ u ∈ rest, (read u).isOk = true
    · obtain ⟨found, later⟩ := items_ok_of_isOk (i := i + 1) done
      rw [itemDefects_of_isOk done, later]
      cases given : read v with
      | ok a =>
        obtain ⟨u, member, failed⟩ := wrong
        rcases List.mem_cons.mp member with rfl | member
        · simp [given, isOk] at failed
        · simp [done u member] at failed
      | invalid ds => simp [under, map, seq, defects]
      | aborted fault => exact (finishes.1 ⟨fault, given⟩).elim
    · have later := ih (i := i + 1) finishes.2 (by simpa using done)
      rw [later]
      cases given : read v with
      | ok a => simp [under, map, seq, defects]
      | invalid ds => simp [under, map, seq, defects]
      | aborted fault => exact (finishes.1 ⟨fault, given⟩).elim

end Reading.Checked

open Reading.Checked

def LoadError.isReport : LoadError → Bool
  | invalid .. => true
  | _ => false

namespace Source

variable {α : Type}

/-- Loading ends with something other than a report on defects. -/
def Stops (outcome : Except LoadError α) : Prop := ∃ e, outcome = .error e ∧ e.isReport = false

def reported : Except LoadError α → List Defect
  | .error (.invalid _ defects) => defects
  | _ => []

end Source

namespace Inventory

open Source

/-- A defect of the entry that stands first, seen from another position of the entry. -/
def atPosition (i : Nat) (d : Defect) : Defect :=
  match d.path with
  | outer :: .position 0 :: inner => ⟨outer :: .position i :: inner, d.cause⟩
  | _ => d

section Single

variable {v : Value} {entry : Entry} {fault : Fault}

theorem ofValue_single_of_ok (done : Entry.read v = .ok entry) :
    ofValue (document [v]) = .ok ⟨[entry]⟩ := by
  simp [ofValue_document, items, done, under, map, seq, ofRead]

theorem ofValue_single_of_aborted (stopped : Entry.read v = .aborted fault) :
    ofValue (document [v]) = .error (.fault fault) := by
  simp [ofValue_document, items, stopped, under, map, seq, ofRead]

theorem ofValue_single_of_invalid {defects : List Defect}
    (wrong : Entry.read v = .invalid defects) : ofValue (document [v]) = .error (.invalid title
      (defects.map fun d => (d.under (.position 0)).under (.name "deployments"))) := by
  simp [ofValue_document, items, wrong, under, map, seq, ofRead]

theorem ofValue_single_eq_ok_iff :
    (∃ inventory, ofValue (document [v]) = .ok inventory) ↔ (Entry.read v).isOk = true := by
  cases read : Entry.read v with
  | ok entry => simp [ofValue_single_of_ok read, isOk]
  | invalid defects => simp [ofValue_single_of_invalid read, isOk]
  | aborted fault => simp [ofValue_single_of_aborted read, isOk]

theorem stops_single_iff : Stops (ofValue (document [v])) ↔ (Entry.read v).Aborts := by
  cases read : Entry.read v with
  | ok entry => simp [ofValue_single_of_ok read, Stops]
  | invalid defects => simp [ofValue_single_of_invalid read, Stops, LoadError.isReport]
  | aborted fault => simp [ofValue_single_of_aborted read, Stops, LoadError.isReport]

theorem reported_single (v : Value) : reported (ofValue (document [v])) =
    (Entry.read v).defects.map fun d => (d.under (.position 0)).under (.name "deployments") := by
  cases read : Entry.read v with
  | ok entry => simp [ofValue_single_of_ok read, reported, defects]
  | invalid defects => simp [ofValue_single_of_invalid read, reported, Checked.defects]
  | aborted fault => simp [ofValue_single_of_aborted read, reported, defects]

theorem atPosition_under (i : Nat) (d : Defect) :
    atPosition i ((d.under (.position 0)).under (.name "deployments")) =
      (d.under (.position i)).under (.name "deployments") := rfl

end Single

theorem itemDefects_eq (raw : List Value) :
    (itemDefects Entry.read 0 raw).map (·.under (.name "deployments")) =
      (raw.mapIdx fun i v => (reported (ofValue (document [v]))).map (atPosition i)).flatten := by
  simp only [itemDefects, reported_single, List.mapIdx_eq_zipIdx_map, List.map_flatten,
    List.map_map, Function.comp_def, atPosition_under, Nat.zero_add]

/-- A list of raw entries is loaded exactly if each of them can be loaded alone, and gives the
entries that these give. Otherwise the first of them to stop with something other than a report
decides, and if there is none then all that is reported of them is reported, at their positions. -/
theorem ofValue_entries (raw : List Value) :
    ((∃ inventory, ofValue (document raw) = .ok inventory) ↔
        ∀ v ∈ raw, ∃ inventory, ofValue (document [v]) = .ok inventory) ∧
      (∀ inventory, ofValue (document raw) = .ok inventory →
        List.Forall₂ (fun v entry => ofValue (document [v]) = .ok ⟨[entry]⟩) raw
          inventory.deployments) ∧
      (∀ before v after e, raw = before ++ v :: after →
        (∀ u ∈ before, ¬ Stops (ofValue (document [u]))) →
        ofValue (document [v]) = .error e → e.isReport = false →
        ofValue (document raw) = .error e) ∧
      ((∀ v ∈ raw, ¬ Stops (ofValue (document [v]))) →
        (∃ v ∈ raw, ∃ e, ofValue (document [v]) = .error e) →
        ofValue (document raw) = .error (.invalid title
          (raw.mapIdx fun i v => (reported (ofValue (document [v]))).map (atPosition i)).flatten)) ∧
      ∀ v, ∀ d ∈ reported (ofValue (document [v])),
        ∃ inner, d.path = .name "deployments" :: .position 0 :: inner := by
  simp only [ofValue_single_eq_ok_iff, stops_single_iff]
  refine ⟨⟨?_, fun done => ?_⟩, ?_, ?_, ?_, ?_⟩
  · rintro ⟨inventory, loaded⟩
    exact isOk_of_forall₂ (ofValue_document_iff.mp loaded)
  · obtain ⟨entries, read⟩ := items_ok_of_isOk (i := 0) done
    exact ⟨⟨entries⟩, by rw [ofValue_document, read, ofRead]⟩
  · intro inventory loaded
    exact (ofValue_document_iff.mp loaded).imp fun v entry => ofValue_single_of_ok
  · rintro before v after e rfl first stopped other
    obtain ⟨fault, aborted⟩ := stops_single_iff.mp ⟨e, stopped, other⟩
    rw [ofValue_single_of_aborted aborted] at stopped
    cases stopped
    rw [ofValue_document, items_aborted first aborted, ofRead]
  · rintro finishes ⟨v, member, e, failed⟩
    have wrong : (Entry.read v).isOk = false := by
      rw [← Bool.not_eq_true, ← ofValue_single_eq_ok_iff, failed]
      simp
    rw [ofValue_document, items_invalid finishes ⟨v, member, wrong⟩, ofRead, itemDefects_eq]
  · intro v d member
    rw [reported_single] at member
    obtain ⟨inner, _, rfl⟩ := List.mem_map.mp member
    exact ⟨inner.path, rfl⟩

/-- A nameless entry is reported with another one behind an entry that is read; a machine whose load
averages cannot be walked through hides both reports. -/
theorem ofValue_entries_of_three :
    let nameless : Value := .record [("errands", .list [])]
    let named : Value := .record [("name", .text "a")]
    let numbered : Value := .record [("name", .int 5)]
    let loaded : Value := .record [("name", .text "b"), ("instances",
      .list [.record [("vitals", .record [("load", .int 5)])]])]
    ofValue (document [nameless, named, numbered]) = .error (.invalid title
        [⟨[.name "deployments", .position 0, .name "name"], .missing⟩,
          ⟨[.name "deployments", .position 2, .name "name"], .textType⟩]) ∧
      ofValue (document [nameless, named, loaded, numbered]) =
        .error (.fault (.notIterable "int")) := by
  intro nameless named numbered loaded
  have first : ¬ Stops (ofValue (document [nameless])) := by
    rw [stops_single_iff]
    exact Checked.aborts_invalid _
  have second : ¬ Stops (ofValue (document [named])) := by
    rw [stops_single_iff]
    exact Checked.aborts_ok _
  have third : ¬ Stops (ofValue (document [numbered])) := by
    rw [stops_single_iff]
    exact Checked.aborts_invalid _
  obtain ⟨_, _, _, reports, _⟩ := ofValue_entries [nameless, named, numbered]
  obtain ⟨_, _, stops, _⟩ := ofValue_entries [nameless, named, loaded, numbered]
  refine ⟨reports ?_ ⟨nameless, List.mem_cons_self, _, rfl⟩,
    stops [nameless, named] loaded [numbered] _ rfl ?_ rfl rfl⟩
  · simpa using ⟨first, second, third⟩
  · simpa using ⟨first, second⟩

end Inventory

end Deployments
