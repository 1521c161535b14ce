import Mathlib.Data.List.Induction
import Mathlib.Data.List.Perm.Basic
import Deployments.Proofs.Selection

/-!
What the director of an inventory serves. Of several entries with one name the first gives the place
and the last one the records, so entries that a later one overrides can be left out.
-/

namespace Deployments.Inventory

/-- No entry behind this one has its name. -/
def Entry.IsLast (entry : Entry) (entries : List Entry) : Prop :=
  ∃ before after, entries = before ++ entry :: after ∧ ∀ other ∈ after, other.name ≠ entry.name

/-- The entries that no later one overrides. -/
def latest : List Entry → List Entry
  | [] => []
  | entry :: rest => if entry.name ∈ rest.map (·.name) then latest rest else entry :: latest rest

variable {entries : List Entry} {entry : Entry}

theorem Entry.IsLast.mem (last : entry.IsLast entries) : entry ∈ entries := by
  obtain ⟨before, after, rfl, _⟩ := last
  exact List.mem_append_right before List.mem_cons_self

theorem Entry.not_isLast_nil : ¬ entry.IsLast [] := fun last => List.not_mem_nil last.mem

theorem Entry.isLast_cons {first : Entry} :
    entry.IsLast (first :: entries) ↔
      (entry = first ∧ first.name ∉ entries.map (·.name)) ∨ entry.IsLast entries := by
  constructor
  · rintro ⟨before, after, same, others⟩
    cases before with
    | nil =>
      obtain ⟨rfl, rfl⟩ := List.cons.inj same
      exact .inl ⟨rfl, by simpa using others⟩
    | cons _ before =>
      obtain ⟨rfl, rfl⟩ := List.cons.inj same
      exact .inr ⟨before, after, rfl, others⟩
  · rintro (⟨rfl, alone⟩ | ⟨before, after, rfl, others⟩)
    · exact ⟨[], entries, rfl, by simpa using alone⟩
    · exact ⟨first :: before, after, rfl, others⟩

/-! ### Entries that are listed -/

theorem mem_record_iff {new : Entry} (apart : (entries.map (·.name)).Nodup) :
    entry ∈ record entries new ↔ entry = new ∨ (entry ∈ entries ∧ entry.name ≠ new.name) := by
  induction entries with
  | nil => simp [record]
  | cons old rest ih =>
    rw [List.map_cons, List.nodup_cons] at apart
    rw [record]
    by_cases same : old.name = new.name
    · have others : entry ∈ rest → entry.name ≠ new.name := by
        intro member found
        apply apart.1
        rw [same, ← found]
        exact List.mem_map_of_mem member
      rw [if_pos same, List.mem_cons, List.mem_cons]
      grind
    · rw [if_neg same, List.mem_cons, List.mem_cons, ih apart.2]
      grind

/-- What is listed in the end is last of its name in what is still to come, or has been listed
before and is overridden by none of it. -/
theorem mem_foldl_record_iff (more : List Entry) {kept : List Entry}
    (apart : (kept.map (·.name)).Nodup) :
    entry ∈ more.foldl record kept ↔
      entry.IsLast more ∨ (entry ∈ kept ∧ entry.name ∉ more.map (·.name)) := by
  induction more generalizing kept with
  | nil => simp [Entry.not_isLast_nil]
  | cons first rest ih =>
    rw [List.foldl_cons, ih (nodup_record apart first), Entry.isLast_cons, mem_record_iff apart,
      List.map_cons, List.mem_cons]
    grind

theorem mem_known_iff {inventory : Inventory} :
    entry ∈ inventory.known ↔ entry.IsLast inventory.deployments := by
  have apart : (([] : List Entry).map (·.name)).Nodup := List.nodup_nil
  rw [known, mem_foldl_record_iff _ apart]
  simp

theorem eraseDups_append_singleton (names : List Text) (name : Text) :
    (names ++ [name]).eraseDups =
      if name ∈ names then names.eraseDups else names.eraseDups ++ [name] := by
  rw [List.eraseDups_append]
  by_cases old : name ∈ names
  · simp [old, List.removeAll]
  · simp [old, List.removeAll, List.eraseDups_cons]

theorem map_name_known (inventory : Inventory) :
    inventory.known.map (·.name) = (inventory.deployments.map (·.name)).eraseDups := by
  obtain ⟨entries⟩ := inventory
  induction entries using List.reverseRecOn with
  | nil => rfl
  | append_singleton entries new ih =>
    have step : known ⟨entries ++ [new]⟩ = record (known ⟨entries⟩) new := by simp [known]
    rw [step, map_name_record, ih, List.map_append, List.map_singleton, eraseDups_append_singleton]
    simp only [List.mem_eraseDups]

/-! ### Entries that are overridden -/

theorem mem_latest_iff : entry ∈ latest entries ↔ entry.IsLast entries := by
  induction entries with
  | nil => simp [latest, Entry.not_isLast_nil]
  | cons first rest ih =>
    rw [latest, Entry.isLast_cons, ← ih]
    split
    next overridden => simp [overridden]
    next alone => simp [alone]

theorem nodup_latest (entries : List Entry) : ((latest entries).map (·.name)).Nodup := by
  induction entries with
  | nil => exact List.nodup_nil
  | cons first rest ih =>
    rw [latest]
    split
    next => exact ih
    next alone =>
      refine List.nodup_cons.mpr ⟨fun found => alone ?_, ih⟩
      obtain ⟨other, member, same⟩ := List.mem_map.mp found
      exact List.mem_map.mpr ⟨other, (mem_latest_iff.mp member).mem, same⟩

theorem mem_known_latest_iff (inventory : Inventory) :
    entry ∈ known ⟨latest inventory.deployments⟩ ↔ entry ∈ inventory.known := by
  -- The names of the entries that are left are distinct, so each of them is the last of its name.
  have all : entry.IsLast (latest inventory.deployments) ↔
      entry ∈ latest inventory.deployments := by
    refine ⟨Entry.IsLast.mem, fun member => ?_⟩
    obtain ⟨before, after, same⟩ := List.append_of_mem member
    refine ⟨before, after, same, fun other behind found => ?_⟩
    have apart := nodup_latest inventory.deployments
    rw [same, List.map_append, List.map_cons] at apart
    apply (List.nodup_cons.mp apart.of_append_right).1
    exact List.mem_map.mpr ⟨other, behind, found⟩
  rw [mem_known_iff, mem_known_iff, all, mem_latest_iff]

theorem known_latest_perm (inventory : Inventory) :
    (known ⟨latest inventory.deployments⟩).Perm inventory.known := by
  apply (List.perm_ext_iff_of_nodup (nodup_known _).of_map (nodup_known _).of_map).mpr
  intro entry
  exact mem_known_latest_iff inventory

theorem find?_latest (inventory : Inventory) :
    find? ⟨latest inventory.deployments⟩ = inventory.find? := by
  funext name
  apply Option.ext
  intro entry
  rw [find?_eq_some_iff, find?_eq_some_iff, mem_known_latest_iff]

/-! ### The director -/

/-- The director of an inventory serves the handles: each name is listed once, at its first
appearance, its handle gives the records of the last entry of this name, and it is the one that is
found under the name. -/
structure Serves (inventory : Inventory) (handles : List (Handle Facet.Record)) : Prop where
  list : inventory.director.list = .ok handles
  nodup : (handles.map (·.name)).Nodup
  names : handles.map (·.name) = (inventory.deployments.map (·.name)).eraseDups
  records : ∀ h ∈ handles, ∃ entry : Entry, entry.IsLast inventory.deployments ∧
    entry.name = h.name ∧ ∀ facet, h.answer facet = .ok (entry.records facet)
  exists_find_iff : ∀ name, (∃ h, inventory.director.find name = .ok h) ↔
    ∃ entry ∈ inventory.deployments, entry.name = name
  find_iff : ∀ name h, inventory.director.find name = .ok h ↔ h ∈ handles ∧ h.name = name
  find_unknown : ∀ name, (¬ ∃ entry ∈ inventory.deployments, entry.name = name) →
    inventory.director.find name = .error (.notFound name)

theorem map_name_handles (entries : List Entry) :
    (entries.map (·.handle)).map (·.name) = entries.map (·.name) := by
  rw [List.map_map]
  rfl

theorem find_director_eq_ok_iff {inventory : Inventory} {name : Text} {h : Handle Facet.Record} :
    inventory.director.find name = .ok h ↔
      ∃ entry, inventory.find? name = some entry ∧ entry.handle = h := by
  cases found : inventory.find? name with
  | none => simp [director, found]
  | some entry => simp [director, found]

theorem serves_known (inventory : Inventory) :
    inventory.Serves (inventory.known.map (·.handle)) where
  list := rfl
  nodup := by
    rw [map_name_handles]
    exact inventory.nodup_known
  names := by rw [map_name_handles, map_name_known]
  records := by
    intro h listed
    obtain ⟨entry, member, rfl⟩ := List.mem_map.mp listed
    exact ⟨entry, mem_known_iff.mp member, rfl, fun _ => rfl⟩
  exists_find_iff := by
    intro name
    rw [← exists_find?_iff]
    simp only [find_director_eq_ok_iff]
    constructor
    · rintro ⟨_, entry, found, _⟩
      exact ⟨entry, found⟩
    · rintro ⟨entry, found⟩
      exact ⟨entry.handle, entry, found, rfl⟩
  find_iff := by
    intro name h
    rw [find_director_eq_ok_iff, List.mem_map]
    constructor
    · rintro ⟨entry, found, rfl⟩
      obtain ⟨member, same⟩ := find?_eq_some_iff.mp found
      exact ⟨⟨entry, member, rfl⟩, same⟩
    · rintro ⟨⟨entry, member, rfl⟩, same⟩
      exact ⟨entry, find?_eq_some_iff.mpr ⟨member, same⟩, rfl⟩
  find_unknown := by
    intro name unknown
    rw [← exists_find?_iff, ← Option.isSome_iff_exists, Option.not_isSome_iff_eq_none] at unknown
    simp [director, unknown]

/-- Of several entries with one name the director serves the last one at the place of the first.
Without the entries that a later one overrides, it finds the same handles under all names and lists
the same ones, perhaps in another order. -/
theorem serves_latest (inventory : Inventory) :
    ∃ handles, inventory.Serves handles ∧ ∃ others,
      (director ⟨latest inventory.deployments⟩).list = .ok others ∧ others.Perm handles ∧
        (director ⟨latest inventory.deployments⟩).find = inventory.director.find := by
  refine ⟨_, inventory.serves_known, _, rfl, (known_latest_perm inventory).map _, ?_⟩
  funext name
  simp only [director, find?_latest]

end Deployments.Inventory
