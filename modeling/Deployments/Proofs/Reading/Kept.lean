import Mathlib.Data.List.Forall2
import Deployments.Reading.FieldReader

/-!
What readings keep. What holds of all parts of a raw value is handed on to what is read from it,
item by item and field by field.
-/

namespace Deployments

theorem map_eq_ok_iff {ε α β : Type} {x : Except ε α} {f : α → β} {b : β} :
    x.map f = .ok b ↔ ∃ a, x = .ok a ∧ f a = b := by
  cases x <;> simp [Except.map]

theorem bind_eq_ok_iff {ε α β : Type} {x : Except ε α} {f : α → Except ε β} {b : β} :
    x.bind f = .ok b ↔ ∃ a, x = .ok a ∧ f a = .ok b := by
  cases x <;> simp [Except.bind]

theorem mapError_eq_ok_iff {ε ε' α : Type} {x : Except ε α} {f : ε → ε'} {a : α} :
    x.mapError f = .ok a ↔ x = .ok a := by
  cases x with
  | ok b =>
    constructor
    · rintro ⟨⟩
      rfl
    · rintro ⟨⟩
      rfl
  | error e => exact iff_of_false nofun nofun

theorem forall_mem_of_forall₂ {α β : Type} {q : β → Prop} {items : List α} {others : List β}
    (all : List.Forall₂ (fun _ other => q other) items others) : ∀ other ∈ others, q other := by
  induction all with
  | nil => nofun
  | cons first _ ih => exact List.forall_mem_cons.mpr ⟨first, ih⟩

namespace Value

/-- A value that is found in another one, at any depth, or is the other one. -/
inductive Part (w : Value) : Value → Prop where
  | self : Part w w
  | list {items : List Value} {v : Value} : v ∈ items → Part w v → Part w (.list items)
  | tuple {items : List Value} {v : Value} : v ∈ items → Part w v → Part w (.tuple items)
  | set {items : List Value} {v : Value} : v ∈ items → Part w v → Part w (.set items)
  | key {entries : Entries} {entry : Value × Value} :
    entry ∈ entries → Part w entry.1 → Part w (.dict entries)
  | value {entries : Entries} {entry : Value × Value} :
    entry ∈ entries → Part w entry.2 → Part w (.dict entries)

def All (p : Value → Prop) (v : Value) : Prop := ∀ w, w.Part v → p w

def isCollection : Value → Bool
  | list _ | tuple _ | set _ | dict _ => true
  | _ => false

/-- The items of a value that is read as a list. -/
def listed : Value → List Value
  | list items | tuple items | set items => items
  | _ => []

variable {p : Value → Prop} {v : Value} {items : List Value} {entries : Entries}

theorem all_of_not_isCollection (single : v.isCollection = false) (own : p v) : v.All p := by
  intro w part
  cases part with
  | self => exact own
  | list | tuple | set | key | value => cases single

theorem All.self (all : v.All p) : p v := all v .self

theorem All.list (all : (Value.list items).All p) : ∀ v ∈ items, v.All p :=
  fun _ member w part => all w (.list member part)

theorem All.tuple (all : (Value.tuple items).All p) : ∀ v ∈ items, v.All p :=
  fun _ member w part => all w (.tuple member part)

theorem All.set (all : (Value.set items).All p) : ∀ v ∈ items, v.All p :=
  fun _ member w part => all w (.set member part)

theorem All.listed (all : v.All p) : ∀ item ∈ v.listed, item.All p := by
  cases v with
  | list => exact all.list
  | tuple => exact all.tuple
  | set => exact all.set
  | _ => exact List.forall_mem_nil _

theorem All.key (all : (Value.dict entries).All p) : ∀ entry ∈ entries, entry.1.All p :=
  fun _ member w part => all w (.key member part)

theorem All.value (all : (Value.dict entries).All p) : ∀ entry ∈ entries, entry.2.All p :=
  fun _ member w part => all w (.value member part)

theorem all_list (own : p (.list items)) (all : ∀ v ∈ items, v.All p) :
    (Value.list items).All p := by
  intro w part
  cases part with
  | self => exact own
  | list member part => exact all _ member w part

theorem all_tuple (own : p (.tuple items)) (all : ∀ v ∈ items, v.All p) :
    (Value.tuple items).All p := by
  intro w part
  cases part with
  | self => exact own
  | tuple member part => exact all _ member w part

theorem all_set (own : p (.set items)) (all : ∀ v ∈ items, v.All p) : (Value.set items).All p := by
  intro w part
  cases part with
  | self => exact own
  | set member part => exact all _ member w part

theorem all_dict (own : p (.dict entries))
    (all : ∀ entry ∈ entries, entry.1.All p ∧ entry.2.All p) : (Value.dict entries).All p := by
  intro w part
  cases part with
  | self => exact own
  | key member part => exact (all _ member).1 w part
  | value member part => exact (all _ member).2 w part

end Value

theorem Entries.mem_of_field? {name : Text} {entries : Entries} {v : Value}
    (found : entries.field? name = some v) : ∃ entry ∈ entries, entry.2 = v := by
  fun_induction Entries.field? name entries with
  | case1 => cases found
  | case2 => exact ⟨_, List.mem_cons_self, Option.some.inj found⟩
  | case3 _ _ _ _ ih | case4 _ _ _ ih =>
    obtain ⟨entry, member, same⟩ := ih found
    exact ⟨entry, List.mem_cons_of_mem _ member, same⟩

/-- Additions one after another bring nothing that has not been added. -/
theorem mem_of_mem_foldl {α : Type} {add : List α → α → List α}
    (adds : ∀ items new a, a ∈ add items new → a = new ∨ a ∈ items) {more items : List α} {a : α}
    (member : a ∈ more.foldl add items) : a ∈ more ∨ a ∈ items := by
  induction more generalizing items with
  | nil => exact .inr member
  | cons first rest ih =>
    rcases ih member with later | before
    · exact .inl (List.mem_cons_of_mem _ later)
    · rcases adds items first a before with same | before
      · exact .inl (same ▸ List.mem_cons_self)
      · exact .inr before

namespace Reading

variable {α β : Type} {p : Value → Prop}

namespace Checked

theorem map_eq_ok_iff {f : α → β} {x : Checked α} {b : β} :
    x.map f = .ok b ↔ ∃ a, x = .ok a ∧ f a = b := by
  cases x <;> simp [map]

theorem seq_eq_ok_iff {f : Checked (α → β)} {x : Unit → Checked α} {b : β} :
    seq f x = .ok b ↔ ∃ g, f = .ok g ∧ ∃ a, x () = .ok a ∧ g a = b := by
  cases f <;> cases given : x () <;> simp [seq, map, given]

theorem eq_ok_iff_exists {x : Checked α} {a : α} : x = .ok a ↔ ∃ b, x = .ok b ∧ b = a := by
  simp

/-! What is read field by field, as a row of outcomes of the fields -/

theorem exists_map_iff {f : α → β} {x : Checked α} {q : β → Prop} :
    (∃ b, f <$> x = .ok b ∧ q b) ↔ ∃ a, x = .ok a ∧ q (f a) := by
  cases x <;> simp [Functor.map, map]

theorem exists_seq_iff {f : Checked (α → β)} {x : Checked α} {q : β → Prop} :
    (∃ b, f <*> x = .ok b ∧ q b) ↔ ∃ g, f = .ok g ∧ ∃ a, x = .ok a ∧ q (g a) := by
  cases f <;> cases x <;> simp [Seq.seq, seq, map]

theorem under_eq_ok_iff {place : Place} {x : Checked α} {a : α} :
    x.under place = .ok a ↔ x = .ok a := by
  cases x <;> simp [under]

theorem items_eq_ok_iff {read : Value → Checked α} {i : Nat} {raw : List Value}
    {found : List α} :
    items read i raw = .ok found ↔ List.Forall₂ (fun v a => read v = .ok a) raw found := by
  induction raw generalizing i found with
  | nil => simp [items, eq_comm]
  | cons v rest ih =>
    rw [items, seq_eq_ok_iff, List.forall₂_cons_left_iff]
    constructor
    · rintro ⟨_, head, others, later, rfl⟩
      obtain ⟨a, first, rfl⟩ := map_eq_ok_iff.mp head
      exact ⟨a, others, under_eq_ok_iff.mp first, ih.mp later, rfl⟩
    · rintro ⟨a, others, first, later, rfl⟩
      exact ⟨_, map_eq_ok_iff.mpr ⟨a, under_eq_ok_iff.mpr first, rfl⟩, others,
        ih.mpr later, rfl⟩

end Checked

theorem forall₂_listed {read : Value → Checked α} {v : Value} {items : List α}
    (done : list read v = .ok items) :
    List.Forall₂ (fun raw a => read raw = .ok a) v.listed items := by
  unfold Reading.list at done
  split at done
  next => exact Checked.items_eq_ok_iff.mp done
  next => exact Checked.items_eq_ok_iff.mp done
  next => exact Checked.items_eq_ok_iff.mp done
  next => cases done

theorem exists_entries_of_record {title : String} {fields : Entries → Checked α} {v : Value} {a : α}
    (done : record title fields v = .ok a) :
    ∃ entries, v = .dict entries ∧ fields entries = .ok a := by
  unfold Reading.record at done
  split at done
  next entries => exact ⟨entries, rfl, done⟩
  next => cases done

/-- What is read from a value all of whose parts have a property is good. -/
def Keeps (p : Value → Prop) (read : Value → Checked α) (good : α → Prop) : Prop :=
  ∀ v a, v.All p → read v = .ok a → good a

theorem Keeps.forall₂ {read : Value → Checked α} {good : α → Prop} (keeps : Keeps p read good)
    {raw : List Value} {items : List α} (all : ∀ v ∈ raw, v.All p)
    (done : List.Forall₂ (fun v a => read v = .ok a) raw items) : ∀ a ∈ items, good a := by
  have each := (List.forall₂_and_left _ _).mpr ⟨all, done⟩
  exact forall_mem_of_forall₂ (each.imp fun v a found => keeps v a found.1 found.2)

theorem Keeps.list {read : Value → Checked α} {good : α → Prop} (keeps : Keeps p read good) :
    Keeps p (list read) fun items => ∀ a ∈ items, good a := by
  intro v items all done
  exact keeps.forall₂ all.listed (forall₂_listed done)

theorem Keeps.optional {read : Value → Checked α} {good : α → Prop} (keeps : Keeps p read good) :
    Keeps p (optional read) fun x => ∀ a ∈ x, good a := by
  intro v x all done
  unfold Reading.optional at done
  split at done
  next =>
    cases done
    nofun
  next =>
    obtain ⟨a, found, rfl⟩ := Checked.map_eq_ok_iff.mp done
    intro b same
    cases same
    exact keeps v a all found

theorem Keeps.nullAs {read : Value → Checked α} {good : α → Prop} (keeps : Keeps p read good)
    {stand : Value} (stands : stand.All p) : Keeps p (fun v => read (nullAs stand v)) good := by
  intro v a all done
  refine keeps _ a ?_ done
  unfold Reading.nullAs
  split
  next => exact stands
  next => exact all

theorem Keeps.record {title : String} {fields : Entries → Checked α} {good : α → Prop}
    (keeps : ∀ entries a, (∀ entry ∈ entries, entry.2.All p) → fields entries = .ok a → good a) :
    Keeps p (record title fields) good := by
  intro v a all done
  obtain ⟨entries, rfl, given⟩ := exists_entries_of_record done
  exact keeps entries a all.value given

namespace FieldReader

/-- What is read of the field is good, and so is what stands for it if it is absent. -/
structure Keeps (p : Value → Prop) (f : FieldReader α) (good : α → Prop) : Prop where
  given : Reading.Keeps p f.read good
  absent : ∀ a, f.absent = some a → good a

theorem Keeps.get {f : FieldReader α} {good : α → Prop} (keeps : f.Keeps p good)
    {entries : Entries} {a : α} (all : ∀ entry ∈ entries, entry.2.All p)
    (done : f.get entries = .ok a) : good a := by
  unfold FieldReader.get at done
  split at done
  next key v found =>
    have member : ∃ entry ∈ entries, entry.2 = v := by
      unfold given? at found
      split at found
      next own =>
        cases found
        exact Entries.mem_of_field? own
      next =>
        obtain ⟨other, _, found⟩ := Option.bind_eq_some_iff.mp found
        obtain ⟨_, under, same⟩ := Option.map_eq_some_iff.mp found
        cases same
        exact Entries.mem_of_field? under
    obtain ⟨entry, member, rfl⟩ := member
    exact keeps.given _ a (all entry member) (Checked.under_eq_ok_iff.mp done)
  next =>
    split at done
    next absent =>
      cases done
      exact keeps.absent _ absent
    next => cases done

theorem keeps_optional {key : Text} {absent : α} {read : Value → Checked α} {good : α → Prop}
    (given : Reading.Keeps p read good) (stands : good absent) :
    (optional key absent read).Keeps p good :=
  ⟨given, fun _ same => Option.some.inj same ▸ stands⟩

theorem good_of_optional {key : Text} {absent a : α} {read : Value → Checked α}
    {good : α → Prop} (given : Reading.Keeps p read good) (stands : good absent)
    {entries : Entries} (all : ∀ entry ∈ entries, entry.2.All p)
    (done : (optional key absent read).get entries = .ok a) : good a :=
  (keeps_optional given stands).get all done

end FieldReader

end Reading

end Deployments
