import Deployments.Reading.FieldReader

/-!
Where defects stand. A reading reports a field under the key that it was given under, so a defect
moves with the key: if a field is given under another key, then the outcome of the reading is the
same with the places of its defects renamed.
-/

namespace Deployments.Reading

/-- A key that a record was given under, and the one that it is given under instead. -/
structure Renaming where
  /-- The place of the record. -/
  record : List Place
  old : Text
  new : Text
  deriving DecidableEq, Repr

namespace Renaming

/-- A path with the old key in a record replaced by the new one. -/
def renamed (old new : Text) : List Place → List Place → List Place
  | [], .name s :: inner => .name (if s = old then new else s) :: inner
  | step :: record, outer :: inner =>
    outer :: if step = outer then renamed old new record inner else inner
  | _, path => path

def along (renamings : List Renaming) (path : List Place) : List Place :=
  renamings.foldl (fun path r => renamed r.old r.new r.record path) path

/-- The renaming seen from one step further out. -/
def within (outer : Place) (r : Renaming) : Renaming := { r with record := outer :: r.record }

theorem along_append (first second : List Renaming) :
    along (first ++ second) = along second ∘ along first := by
  funext path
  exact List.foldl_append

theorem along_within (outer step : Place) (renamings : List Renaming) (inner : List Place) :
    along (renamings.map (within outer)) (step :: inner) =
      step :: if outer = step then along renamings inner else inner := by
  induction renamings generalizing inner with
  | nil => simp [along]
  | cons r rest ih =>
    have first : renamed r.old r.new (outer :: r.record) (step :: inner) =
        step :: if outer = step then renamed r.old r.new r.record inner else inner := rfl
    rw [List.map_cons, along, List.foldl_cons, within, first]
    refine (ih _).trans ?_
    split <;> rfl

theorem along_single (old new s : Text) (inner : List Place) :
    along [⟨[], old, new⟩] (.name s :: inner) = .name (if s = old then new else s) :: inner := rfl

end Renaming

namespace Checked

variable {α β : Type} {g h : List Place → List Place}

def mapPaths (g : List Place → List Place) : Checked α → Checked α
  | ok a => ok a
  | invalid defects => invalid (defects.map fun d => ⟨g d.path, d.cause⟩)
  | aborted fault => aborted fault

@[simp] theorem mapPaths_id (x : Checked α) : x.mapPaths id = x := by
  cases x <;> simp [mapPaths]

@[simp] theorem mapPaths_along_nil (x : Checked α) : x.mapPaths (Renaming.along []) = x :=
  mapPaths_id x

theorem mapPaths_mapPaths (x : Checked α) : (x.mapPaths g).mapPaths h = x.mapPaths (h ∘ g) := by
  cases x <;> simp [mapPaths]

theorem mapPaths_map (f : α → β) (x : Checked α) : (x.map f).mapPaths g = (x.mapPaths g).map f := by
  cases x <;> rfl

theorem mapPaths_seq (f : Checked (α → β)) (x : Unit → Checked α) :
    (seq f x).mapPaths g = seq (f.mapPaths g) fun _ => (x ()).mapPaths g := by
  cases f with
  | ok a => exact mapPaths_map a (x ())
  | invalid defects => cases given : x () <;> simp [seq, mapPaths, given]
  | aborted fault => rfl

theorem mapPaths_fmap (f : α → β) (x : Checked α) : (f <$> x).mapPaths g = f <$> x.mapPaths g :=
  mapPaths_map f x

theorem mapPaths_apply (f : Checked (α → β)) (x : Checked α) :
    (f <*> x).mapPaths g = f.mapPaths g <*> x.mapPaths g :=
  mapPaths_seq f fun _ => x

theorem mapPaths_under {outer other : Place}
    (moves : ∀ inner, g (outer :: inner) = other :: h inner) (x : Checked α) :
    (x.under outer).mapPaths g = (x.mapPaths h).under other := by
  cases x with
  | ok | aborted => rfl
  | invalid defects => simp [under, mapPaths, Defect.under, moves]

variable {read : Value → Checked α}

theorem items_mapPaths_self {i : Nat} {raw : List Value}
    (kept : ∀ j : Nat, i ≤ j → ∀ inner, g (.position j :: inner) = .position j :: inner) :
    (items read i raw).mapPaths g = items read i raw := by
  induction raw generalizing i with
  | nil => rfl
  | cons v rest ih =>
    have own := kept i (Nat.le_refl i)
    rw [items, mapPaths_seq, mapPaths_map, mapPaths_under (h := id) own, mapPaths_id,
      ih fun j later => kept j (Nat.le_of_succ_le later)]

/-- If one item is read as another one with its defects moved, then so are the rows in which the
items stand, as far as the defects at other positions stay. -/
theorem items_mapPaths {i : Nat} {before after : List Value} {v w : Value}
    (moves : ∀ (j : Nat) inner, g (.position j :: inner) =
      .position j :: if j = i + before.length then h inner else inner)
    (same : read w = (read v).mapPaths h) :
    items read i (before ++ w :: after) = (items read i (before ++ v :: after)).mapPaths g := by
  induction before generalizing i with
  | nil =>
    have own (inner : List Place) : g (.position i :: inner) = .position i :: h inner := by
      simp [moves]
    have later (j : Nat) (beyond : i + 1 ≤ j) (inner : List Place) :
        g (.position j :: inner) = .position j :: inner := by
      rw [moves, if_neg (by simp only [List.length_nil]; omega)]
    rw [List.nil_append, List.nil_append, items, items, mapPaths_seq, mapPaths_map,
      mapPaths_under own, same, items_mapPaths_self later]
  | cons u rest ih =>
    -- The first item is not the one that changes, so its defects stay.
    have own (inner : List Place) : g (.position i :: inner) = .position i :: id inner := by
      rw [moves, if_neg (by simp only [List.length_cons]; omega), id]
    rw [List.cons_append, List.cons_append, items, items, mapPaths_seq, mapPaths_map,
      mapPaths_under own, mapPaths_id, ih]
    intro j inner
    rw [moves, List.length_cons, Nat.add_right_comm, Nat.add_assoc]

end Checked

namespace FieldReader

variable {α : Type} {f : FieldReader α} {entries others : Entries} {key other : Text}
  {v w : Value}

def keys (f : FieldReader α) : List Text := f.key :: f.alternative.toList

theorem key_mem_keys (f : FieldReader α) : f.key ∈ f.keys := List.mem_cons_self

theorem given?_eq (f : FieldReader α) (entries : Entries) :
    f.given? entries = f.keys.findSome? fun key => (entries.field? key).map fun v => (key, v) := by
  unfold given? keys
  cases own : entries.field? f.key with
  | some v => simp [own]
  | none => cases under : f.alternative <;> simp [own]

theorem given?_own (found : entries.field? f.key = some v) :
    f.given? entries = some (f.key, v) := by
  rw [given?, found]

theorem given?_alone (own : key ∈ f.keys) (found : entries.field? key = some v)
    (alone : ∀ other ∈ f.keys, other ≠ key → entries.field? other = none) :
    f.given? entries = some (key, v) := by
  by_cases first : key = f.key
  · subst first
    exact given?_own found
  · have second : f.alternative = some key :=
      Option.mem_toList.mp ((List.mem_cons.mp own).resolve_left first)
    rw [given?, alone _ f.key_mem_keys (Ne.symm first), second, Option.bind_some, found,
      Option.map_some]

theorem given?_congr (same : ∀ key ∈ f.keys, others.field? key = entries.field? key) :
    f.given? others = f.given? entries := by
  unfold given?
  rw [same _ f.key_mem_keys]
  cases under : f.alternative with
  | none => rfl
  | some other => rw [Option.bind_some, Option.bind_some, same other (by simp [keys, under])]

theorem get_congr (same : ∀ key ∈ f.keys, others.field? key = entries.field? key) :
    f.get others = f.get entries := by
  rw [get, get, given?_congr same]

theorem mem_keys_of_given? (given : f.given? entries = some (key, v)) : key ∈ f.keys := by
  rw [given?_eq] at given
  obtain ⟨_, member, found⟩ := List.exists_of_findSome?_eq_some given
  obtain ⟨_, _, same⟩ := Option.map_eq_some_iff.mp found
  cases same
  exact member

theorem given?_eq_none (missing : ∀ key ∈ f.keys, entries.field? key = none) :
    f.given? entries = none := by
  rw [given?_eq, List.findSome?_eq_none_iff]
  intro key member
  rw [missing key member]
  rfl

theorem get_of_given (given : f.given? entries = some (key, v)) :
    f.get entries = (f.read v).under (.name key) := by
  rw [get, given]

variable {g h : List Place → List Place}

/-- The field is given under another key, and its value is read as the old one with its defects
moved. -/
theorem get_mapPaths (given : f.given? entries = some (key, v))
    (given' : f.given? others = some (other, w))
    (moves : ∀ inner, g (.name key :: inner) = .name other :: h inner)
    (same : f.read w = (f.read v).mapPaths h) : f.get others = (f.get entries).mapPaths g := by
  rw [get_of_given given, get_of_given given', Checked.mapPaths_under moves, same]

theorem get_mapPaths_self (same : ∀ key ∈ f.keys, others.field? key = entries.field? key)
    (kept : ∀ key ∈ f.keys, ∀ inner, g (.name key :: inner) = .name key :: inner) :
    f.get others = (f.get entries).mapPaths g := by
  have given := given?_congr same
  cases found : f.given? entries with
  | some entry =>
    have own := kept entry.1 (mem_keys_of_given? found)
    exact get_mapPaths (h := id) found (given.trans found) own (Checked.mapPaths_id _).symm
  | none =>
    rw [get, get, given, found]
    cases f.absent with
    | some a => rfl
    | none =>
      have own := kept f.key f.key_mem_keys
      simp [Checked.refused, Checked.under, Checked.mapPaths, Defect.under, own]

end FieldReader

end Deployments.Reading
