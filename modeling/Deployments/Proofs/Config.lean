import Deployments.Proofs.Inventory

/-!
Which names a configuration selects: those that its document lists, with placeholders replaced,
without the spaces around them and without the blank ones.
-/

namespace Deployments

open Reading

namespace Reading

variable {α : Type}

/-- The texts among items that are read as texts. -/
def textsOf (items : List Value) : List Text := items.filterMap fun v => (text v).toOption

theorem FieldReader.get_optional {key : Text} {absent a : α} {read : Value → Checked α}
    {entries : Entries} (done : (optional key absent read).get entries = .ok a) :
    (entries.field? key = none ∧ a = absent) ∨
      ∃ v, entries.field? key = some v ∧ read v = .ok a := by
  simp only [get, given?, optional, Option.bind_none] at done
  cases found : entries.field? key with
  | none =>
    rw [found] at done
    cases done
    exact .inl ⟨rfl, rfl⟩
  | some v =>
    rw [found] at done
    exact .inr ⟨v, rfl, Checked.under_eq_ok_iff.mp done⟩

end Reading

namespace Value

/-- The value under a name in a mapping. -/
def at? (name : Text) : Value → Option Value
  | dict entries => Entries.field? name entries
  | _ => none

end Value

theorem Reading.list_text {v : Value} {names : List Text} (done : list text v = .ok names) :
    names = textsOf v.listed := by
  have each := forall₂_listed done
  clear done
  generalize v.listed = items at each
  induction each with
  | nil => rfl
  | cons first _ ih =>
    rw [textsOf, List.filterMap_cons, first, ih]
    rfl

namespace Config

/-- The names that a document lists for the selection. -/
def listedNames (document : Value) : List Text :=
  let given := (document.at? "filters").bind (·.at? "deployments")
  (given.map fun v => textsOf v.listed).getD []

theorem mem_stripped_iff (names : List Text) (name : Text) :
    name ∈ Filters.stripped names ↔ ∃ given ∈ names, Text.strip given = name ∧ name ≠ "" := by
  simp only [Filters.stripped, List.mem_filter, List.mem_map, bne_iff_ne]
  exact ⟨fun ⟨⟨given, member, same⟩, filled⟩ => ⟨given, member, same, filled⟩,
    fun ⟨given, member, same, filled⟩ => ⟨⟨given, member, same⟩, filled⟩⟩

theorem Filters.deployments_of_read {v : Value} {filters : Filters}
    (done : Filters.read v = .ok filters) :
    filters.deployments =
      Filters.stripped (((v.at? "deployments").map fun v => textsOf v.listed).getD []) := by
  obtain ⟨entries, rfl, read⟩ := exists_entries_of_record done
  simp only [Checked.eq_ok_iff_exists (a := filters), Checked.exists_map_iff] at read
  obtain ⟨names, found, rfl⟩ := read
  rcases FieldReader.get_optional found with ⟨missing, rfl⟩ | ⟨w, given, found⟩
  · rw [Value.at?, missing]
    rfl
  · obtain ⟨texts, listed, rfl⟩ := Checked.map_eq_ok_iff.mp found
    rw [Value.at?, given, list_text listed]
    rfl

/-- A document that is loaded is read to its end. -/
theorem ofDocument_eq_ok_iff {env : Environment} {document : Value} {config : Config} :
    ofDocument env document = .ok config ↔
      document.isEndless = false ∧ ofValue env document = .ok config := by
  unfold ofDocument
  cases document.isEndless <;> simp

/-- The selected names are those that the document lists. -/
theorem deployments_of_ofValue {env : Environment} {document : Value} {config : Config}
    (done : ofValue env document = .ok config) :
    config.filters.deployments =
      Filters.stripped (listedNames (Placeholder.substitute env document)) := by
  obtain ⟨entries, same, fields⟩ := Source.fields_of_named done
  simp only [readFields, Checked.eq_ok_iff_exists (a := config), Checked.exists_seq_iff,
    Checked.exists_map_iff] at fields
  obtain ⟨director, _, filters, found, logging, _, rfl⟩ := fields
  rw [listedNames, same, Value.at?]
  rcases FieldReader.get_optional found with ⟨missing, rfl⟩ | ⟨v, given, found⟩
  · rw [missing]
    rfl
  · rw [given, Option.bind_some]
    exact Filters.deployments_of_read found

end Config

end Deployments
