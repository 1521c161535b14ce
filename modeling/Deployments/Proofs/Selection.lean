import Mathlib.Data.List.Forall2
import Mathlib.Data.List.Nodup
import Deployments.Selection

/-!
What is selected of an inventory: all entries that count, or those of given names, each of which has
to be the name of an entry.
-/

namespace Deployments

namespace Inventory

theorem exists_record_iff (entries : List Entry) (new : Entry) (name : Text) :
    (∃ entry ∈ record entries new, entry.name = name) ↔
      (∃ entry ∈ entries, entry.name = name) ∨ new.name = name := by
  induction entries with
  | nil => simp [record]
  | cons old rest ih =>
    rw [record]
    split
    next same =>
      rw [List.exists_mem_cons_iff, List.exists_mem_cons_iff, same, or_right_comm, or_self]
    next => rw [List.exists_mem_cons_iff, List.exists_mem_cons_iff, ih, or_assoc]

/-- The entries that count have the names that there are. -/
theorem exists_known_iff (inventory : Inventory) (name : Text) :
    (∃ entry ∈ inventory.known, entry.name = name) ↔
      ∃ entry ∈ inventory.deployments, entry.name = name := by
  have all : ∀ (more entries : List Entry),
      (∃ entry ∈ more.foldl record entries, entry.name = name) ↔
        (∃ entry ∈ entries, entry.name = name) ∨ ∃ entry ∈ more, entry.name = name := by
    intro more
    induction more with
    | nil => simp
    | cons entry rest ih =>
      intro entries
      rw [List.foldl_cons, ih, exists_record_iff, List.exists_mem_cons_iff, or_assoc]
  simpa [known] using all inventory.deployments []

theorem exists_find?_iff (inventory : Inventory) (name : Text) :
    (∃ entry, inventory.find? name = some entry) ↔
      ∃ entry ∈ inventory.deployments, entry.name = name := by
  rw [← Option.isSome_iff_exists, find?, List.find?_isSome, ← exists_known_iff]
  simp

theorem map_name_record (entries : List Entry) (new : Entry) :
    (record entries new).map (·.name) =
      if new.name ∈ entries.map (·.name) then entries.map (·.name)
      else entries.map (·.name) ++ [new.name] := by
  induction entries with
  | nil => rfl
  | cons old rest ih =>
    rw [record]
    by_cases same : old.name = new.name
    · simp [same]
    · rw [if_neg same, List.map_cons, ih]
      simp only [List.map_cons, List.mem_cons, Ne.symm same, false_or]
      split <;> rfl

theorem nodup_record {entries : List Entry} (apart : (entries.map (·.name)).Nodup) (new : Entry) :
    ((record entries new).map (·.name)).Nodup := by
  rw [map_name_record]
  split
  next => exact apart
  next absent => exact List.nodup_append.mpr ⟨apart, List.nodup_singleton _, by simpa using absent⟩

theorem nodup_known (inventory : Inventory) : (inventory.known.map (·.name)).Nodup := by
  have all : ∀ (more entries : List Entry), (entries.map (·.name)).Nodup →
      ((more.foldl record entries).map (·.name)).Nodup := by
    intro more
    induction more with
    | nil => exact fun _ apart => apart
    | cons entry rest ih => exact fun _ apart => ih _ (nodup_record apart entry)
  exact all inventory.deployments [] List.nodup_nil

/-- A name finds the one entry of this name that counts. -/
theorem find?_eq_some_iff {inventory : Inventory} {name : Text} {entry : Entry} :
    inventory.find? name = some entry ↔ entry ∈ inventory.known ∧ entry.name = name := by
  rw [find?]
  constructor
  · intro found
    exact ⟨List.mem_of_find?_eq_some found, by simpa using List.find?_some found⟩
  · rintro ⟨member, rfl⟩
    cases found : inventory.known.find? fun other => other.name == entry.name with
    | none => simpa using List.find?_eq_none.mp found entry member
    | some other =>
      have same : other.name = entry.name := by simpa using List.find?_some found
      have member' := List.mem_of_find?_eq_some found
      rw [List.inj_on_of_nodup_map inventory.nodup_known member' member same]

/-- The entries that names select; no name selects all. -/
def selected? (inventory : Inventory) (names : List Text) : Option (List Entry) :=
  if names.isEmpty then some inventory.known else names.mapM inventory.find?

theorem exists_mapM_iff {α β : Type} (f : α → Option β) (items : List α) :
    (∃ found, items.mapM f = some found) ↔ ∀ item ∈ items, ∃ b, f item = some b := by
  induction items with
  | nil => simp
  | cons item rest ih =>
    rw [List.forall_mem_cons, ← ih, List.mapM_cons]
    cases f item <;> cases rest.mapM f <;> simp

theorem exists_of_mem_mapM {α β : Type} {f : α → Option β} {items : List α} {found : List β}
    (all : items.mapM f = some found) {b : β} (member : b ∈ found) :
    ∃ item ∈ items, f item = some b := by
  induction items generalizing found with
  | nil =>
    cases all
    cases member
  | cons item rest ih =>
    rw [List.mapM_cons] at all
    cases first : f item with
    | none => simp [first] at all
    | some c =>
      cases others : rest.mapM f with
      | none => simp [first, others] at all
      | some more =>
        simp only [first, others, Option.pure_def, Option.bind_eq_bind, Option.bind_some,
          Option.some.injEq] at all
        subst all
        rcases List.mem_cons.mp member with rfl | later
        · exact ⟨item, List.mem_cons_self, first⟩
        · obtain ⟨other, inside, same⟩ := ih others later
          exact ⟨other, List.mem_cons_of_mem _ inside, same⟩

theorem exists_selected?_iff (inventory : Inventory) (names : List Text) :
    (∃ entries, inventory.selected? names = some entries) ↔
      ∀ name ∈ names, ∃ entry ∈ inventory.deployments, entry.name = name := by
  simp only [← exists_find?_iff]
  rw [selected?]
  split
  next none =>
    rw [List.isEmpty_iff.mp none]
    simp
  next => exact exists_mapM_iff inventory.find? names

end Inventory

/-- The director finds a handle for each of the names. -/
def Director.Finds {ρ : Facet → Type} (director : Director ρ) :
    List Text → List (Handle ρ) → Prop :=
  List.Forall₂ fun name handle => director.find name = .ok handle

namespace Selection

variable {ρ : Facet → Type} {director : Director ρ}

theorem texts_map (index : Nat) (names : List Text) :
    texts index (names.map .text) = .ok names := by
  induction names generalizing index with
  | nil => rfl
  | cons name rest ih =>
    rw [List.map_cons, texts, ih]
    rfl

theorem exists_finds (director : Director ρ) (names : List Text) :
    (∃ handles, director.Finds names handles) ∨
      ∃ before name after handles e, names = before ++ name :: after ∧
        director.Finds before handles ∧ director.find name = .error e := by
  induction names with
  | nil => exact .inl ⟨[], .nil⟩
  | cons name rest ih =>
    cases first : director.find name with
    | error e => exact .inr ⟨[], name, rest, [], e, rfl, .nil, first⟩
    | ok handle =>
      rcases ih with ⟨handles, found⟩ | ⟨before, other, after, handles, e, rfl, found, raised⟩
      · exact .inl ⟨handle :: handles, .cons first found⟩
      · exact .inr ⟨name :: before, other, after, handle :: handles, e, rfl, .cons first found,
          raised⟩

theorem findAll_append {before : List Text} {handles : List (Handle ρ)}
    (found : director.Finds before handles) (rest : List Text) :
    findAll director (before ++ rest) =
      let later := findAll director rest
      (before.map .find ++ later.1, later.2.map (handles ++ ·)) := by
  induction found with
  | nil =>
    show findAll director rest = _
    rcases findAll director rest with ⟨calls, _ | _⟩ <;> rfl
  | cons first _ ih =>
    rw [List.cons_append, findAll, first, ih]
    rcases findAll director rest with ⟨calls, _ | _⟩ <;> rfl

theorem findAll_of_finds {names : List Text} {handles : List (Handle ρ)}
    (found : director.Finds names handles) :
    findAll director names = (names.map .find, .ok handles) := by
  have all := findAll_append found []
  simpa [findAll, Except.map] using all

theorem findAll_of_raised {before after : List Text} {name : Text}
    {handles : List (Handle ρ)} {e : Raised} (found : director.Finds before handles)
    (raised : director.find name = .error e) :
    findAll director (before ++ name :: after) =
      ((before ++ [name]).map .find, .error (failureOf (some name) e)) := by
  rw [findAll_append found, findAll, raised, List.map_append]
  rfl

/-- Names are looked up until one is the name of no entry. -/
theorem findAll_director (inventory : Inventory) (names : List Text) :
    (∃ entries, names.mapM inventory.find? = some entries ∧
        (findAll inventory.director names).2 = .ok (entries.map (·.handle))) ∨
      (names.mapM inventory.find? = none ∧ ∃ name ∈ names,
        (findAll inventory.director names).2 = .error (.listing (some name) (.notFound name))) := by
  induction names with
  | nil => exact .inl ⟨[], rfl, rfl⟩
  | cons name rest ih =>
    rw [List.mapM_cons, findAll]
    cases found : inventory.find? name with
    | none =>
      simp only [Inventory.director, found]
      exact .inr ⟨rfl, name, List.mem_cons_self, rfl⟩
    | some entry =>
      rcases later : findAll inventory.director rest with ⟨calls, outcome⟩
      have step : inventory.director.find name = .ok entry.handle := by
        simp only [Inventory.director, found]
      rw [later] at ih
      simp only [step]
      rcases ih with ⟨entries, others, rfl⟩ | ⟨missing, other, member, rfl⟩
      · exact .inl ⟨entry :: entries, by simp [others], rfl⟩
      · exact .inr ⟨by simp [missing], other, List.mem_cons_of_mem name member, rfl⟩

/-- The first name that no entry has ends the look-up. -/
theorem findAll_of_unknown {inventory : Inventory} {before : List Text} {name : Text}
    (known : ∀ n ∈ before, ∃ entry ∈ inventory.deployments, entry.name = n)
    (unknown : ¬ ∃ entry ∈ inventory.deployments, entry.name = name) (rest : List Text) :
    findAll inventory.director (before ++ name :: rest) =
      ((before ++ [name]).map .find, .error (.listing (some name) (.notFound name))) := by
  have missing : inventory.director.find name = .error (.notFound name) := by
    rw [← inventory.exists_find?_iff, ← Option.isSome_iff_exists, Option.not_isSome_iff_eq_none]
      at unknown
    simp only [Inventory.director, unknown]
  rcases exists_finds inventory.director before with
    ⟨handles, found⟩ | ⟨_, other, _, _, e, rfl, _, raised⟩
  · exact findAll_of_raised found missing
  · obtain ⟨entry, found⟩ := (inventory.exists_find?_iff other).mpr (known other (by simp))
    simp only [Inventory.director, found] at raised
    cases raised

theorem select_nil (director : Director ρ) (parent : Text) :
    (select parent [] director).calls = [.list] ∧
      (select parent [] director).outcome = director.list.mapError (failureOf none) :=
  ⟨rfl, rfl⟩

theorem select_texts (director : Director ρ) (parent : Text) {names : List Text}
    (filled : names ≠ []) :
    (select parent (names.map .text) director).calls = (findAll director names).1 ∧
      (select parent (names.map .text) director).outcome = (findAll director names).2 := by
  rw [select, if_neg (by simpa using filled), texts_map]
  exact ⟨rfl, rfl⟩

/-- The selection of an inventory gives the handles of the selected entries, or fails for a name
that no entry has. -/
theorem select_director (parent : Text) (names : List Text) (inventory : Inventory) :
    (∃ entries, inventory.selected? names = some entries ∧
        (select parent (names.map .text) inventory.director).outcome =
          .ok (entries.map (·.handle))) ∨
      (inventory.selected? names = none ∧ ∃ name ∈ names,
        (select parent (names.map .text) inventory.director).outcome =
          .error (.listing (some name) (.notFound name))) := by
  by_cases empty : names = []
  · subst empty
    exact .inl ⟨inventory.known, rfl, rfl⟩
  · rw [(select_texts inventory.director parent empty).2, Inventory.selected?,
      if_neg (by simpa using empty)]
    exact findAll_director inventory names

end Selection

end Deployments
