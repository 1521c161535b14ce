import Deployments.Proofs.Config
import Deployments.Proofs.Inventory.Entries
import Deployments.Proofs.Record.Fields

/-!
Values that differ at certain places only. If some numbers in a raw value are replaced by blanks,
then what is read of the value differs at their places only, if it is still read at all.
-/

namespace Deployments

open Reading

abbrev Places := List Place → Prop

namespace Places

variable {places : Places}

/-- The places under a given one, seen from there. -/
def within (places : Places) (outer : Place) : Places := fun inner => places (outer :: inner)

/-- The places under a key, if it is a name. -/
def withinKey (places : Places) (key : Value) : Places := fun inner =>
  ∃ s, text key = .ok s ∧ places.within (.name s) inner

theorem withinKey_of_text {key : Value} {s : Text} (named : text key = .ok s) :
    places.withinKey key = places.within (.name s) := by
  funext inner
  simp [withinKey, named]

theorem withinKey_text (places : Places) (s : Text) :
    places.withinKey (.text s) = places.within (.name s) := withinKey_of_text rfl

end Places

namespace Value

/-- Both values are rows of the same kind. -/
def areRows : Value → Value → Bool
  | list _, list _ | tuple _, tuple _ | set _, set _ => true
  | _, _ => false

variable {v w : Value}

theorem isCollection_of_areRows (rows : v.areRows w = true) :
    v.isCollection = true ∧ w.isCollection = true := by
  unfold areRows at rows
  split at rows <;> first | exact ⟨rfl, rfl⟩ | cases rows

theorem items?_of_areRows (rows : v.areRows w = true) :
    v.items? = some v.listed ∧ w.items? = some w.listed := by
  unfold areRows at rows
  split at rows <;> first | exact ⟨rfl, rfl⟩ | cases rows

theorem list_of_areRows {α : Type} (rows : v.areRows w = true) (read : Value → Checked α) :
    Reading.list read w = Checked.items read 0 w.listed := by
  unfold areRows at rows
  split at rows <;> first | rfl | cases rows

end Value

/-- The second value is the first one, but for new values at some of the places. -/
inductive Replaced (new : Value → Prop) : Places → Value → Value → Prop where
  | same {places : Places} {v : Value} : Replaced new places v v
  | new {places : Places} {v w : Value} : places [] → new w → Replaced new places v w
  | row {places : Places} {v w : Value} : v.areRows w = true → v.listed.length = w.listed.length →
    (∀ (i : Nat) (item other : Value), v.listed[i]? = some item → w.listed[i]? = some other →
      Replaced new (places.within (.position i)) item other) →
    Replaced new places v w
  | dict {places : Places} {entries others : Entries} :
    entries.map Prod.fst = others.map Prod.fst →
    (∀ (i : Nat) (entry other : Value × Value), entries[i]? = some entry →
      others[i]? = some other → Replaced new (places.withinKey entry.1) entry.2 other.2) →
    Replaced new places (.dict entries) (.dict others)

namespace Replaced

variable {new : Value → Prop} {places : Places} {v w : Value} {entries others : Entries}

theorem eq_of_none (replaced : Replaced new places v w) (none : ∀ path, ¬ places path) : v = w := by
  induction replaced with
  | same => rfl
  | new here => exact absurd here (none [])
  | @row places v w rows length _ ih =>
    have items : v.listed = w.listed := by
      refine List.ext_getElem length fun i left right => ?_
      exact ih i _ _ (List.getElem?_eq_getElem left) (List.getElem?_eq_getElem right)
        fun inner => none (.position i :: inner)
    cases v <;> cases w <;> simp_all [Value.areRows, Value.listed]
  | @dict places entries others keys _ ih =>
    have length : entries.length = others.length := by simpa using congrArg List.length keys
    refine congrArg Value.dict (List.ext_getElem length fun i left right => Prod.ext ?_ ?_)
    · have same := congrArg (·[i]?) keys
      simpa [left, right] using same
    · refine ih i _ _ (List.getElem?_eq_getElem left) (List.getElem?_eq_getElem right) ?_
      rintro inner ⟨s, _, here⟩
      exact none _ here

theorem forall₂_iff :
    List.Forall₂ (fun entry other =>
        entry.1 = other.1 ∧ Replaced new (places.withinKey entry.1) entry.2 other.2)
        entries others ↔
      entries.map Prod.fst = others.map Prod.fst ∧
        ∀ (i : Nat) (entry other : Value × Value), entries[i]? = some entry →
          others[i]? = some other → Replaced new (places.withinKey entry.1) entry.2 other.2 := by
  constructor
  · intro all
    induction all with
    | nil => exact ⟨rfl, nofun⟩
    | cons head tail ih =>
      refine ⟨by simp [head.1, ih.1], fun i entry other left right => ?_⟩
      cases i with
      | zero =>
        cases left
        cases right
        exact head.2
      | succ i => exact ih.2 i entry other left right
  · rintro ⟨keys, each⟩
    induction entries generalizing others with
    | nil =>
      cases List.map_eq_nil_iff.mp keys.symm
      exact .nil
    | cons entry entries ih =>
      obtain ⟨other, rest, rfl, key, keys⟩ := List.map_eq_cons_iff.mp keys.symm
      exact .cons ⟨key.symm, each 0 _ _ rfl rfl⟩
        (ih keys.symm fun i entry other left right => each (i + 1) entry other left right)

theorem record {fields others : List (Text × Value)}
    (all : List.Forall₂ (fun field other => field.1 = other.1 ∧
      Replaced new (places.within (.name field.1)) field.2 other.2) fields others) :
    Replaced new places (.record fields) (.record others) := by
  have entries : List.Forall₂ (fun entry other : Value × Value =>
        entry.1 = other.1 ∧ Replaced new (places.withinKey entry.1) entry.2 other.2)
      (fields.map fun field => (.text field.1, field.2))
      (others.map fun field => (.text field.1, field.2)) := by
    refine List.forall₂_map_left_iff.mpr (List.forall₂_map_right_iff.mpr (all.imp ?_))
    rintro field other ⟨key, replaced⟩
    exact ⟨congrArg Value.text key, by rwa [Places.withinKey_text]⟩
  obtain ⟨keys, each⟩ := forall₂_iff.mp entries
  exact .dict keys each

/-- A replaced mapping has the same keys, with replaced values. -/
theorem exists_entries (replaced : Replaced new places (.dict entries) w) (whole : ¬ places []) :
    ∃ others, w = .dict others ∧ List.Forall₂ (fun entry other =>
      entry.1 = other.1 ∧ Replaced new (places.withinKey entry.1) entry.2 other.2)
      entries others := by
  cases replaced with
  | same => exact ⟨entries, rfl, List.forall₂_same.mpr fun _ _ => ⟨rfl, .same⟩⟩
  | new here => exact absurd here whole
  | row rows => cases rows
  | dict keys each => exact ⟨_, rfl, forall₂_iff.mpr ⟨keys, each⟩⟩

theorem field? (all : List.Forall₂ (fun entry other =>
      entry.1 = other.1 ∧ Replaced new (places.withinKey entry.1) entry.2 other.2) entries others)
    (key : Text) :
    (entries.field? key = none ∧ others.field? key = none) ∨
      ∃ v w, entries.field? key = some v ∧ others.field? key = some w ∧
        Replaced new (places.within (.name key)) v w := by
  induction all with
  | nil => exact .inl ⟨rfl, rfl⟩
  | @cons entry other entries others head _ ih =>
    obtain ⟨name, v⟩ := entry
    obtain ⟨_, w⟩ := other
    obtain ⟨rfl, replaced⟩ := head
    by_cases own : name = .text key
    · subst own
      rw [Places.withinKey_text] at replaced
      exact .inr ⟨v, w, Entries.field?_cons_self _ _ _, Entries.field?_cons_self _ _ _, replaced⟩
    · rw [Entries.field?_cons_of_ne own, Entries.field?_cons_of_ne own]
      exact ih

end Replaced

end Deployments
