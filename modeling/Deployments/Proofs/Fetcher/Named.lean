import Deployments.Proofs.Order

/-!
Fetches of named deployments against the fetch of all. A fetch of names brings for each name the
snapshot that the fetch of all brings under it, and a name that no deployment has ends the fetch
before anything is read.
-/

namespace Deployments

open Decimal

namespace Inventory

variable {inventory : Inventory}

theorem mapM_find?_known : (inventory.known.map (·.name)).mapM inventory.find? =
    some inventory.known := by
  rw [mapM_eq_some_iff, List.forall₂_map_left_iff, List.forall₂_same]
  exact fun entry member => find?_eq_some_iff.mpr ⟨member, rfl⟩

theorem selected?_names_known :
    inventory.selected? (inventory.known.map (·.name)) = some inventory.known := by
  rw [selected?]
  split
  next => rfl
  next => exact mapM_find?_known

theorem selected?_nil : inventory.selected? [] = some inventory.known := rfl

end Inventory

theorem Raised.message_notFound (name : Text) :
    (Raised.notFound name).message = "Deployment " ++ Failure.marked name ++ " not found" := by
  have text : (Raised.notFound name).text =
      .ok ("Deployment \x60" ++ name ++ "\x60 not found") := by
    have kind : (Raised.notFound name).kind == Raised.notFoundKind := by simp [Raised.notFound]
    have flat : ¬ Raised.depthLimit < Value.depthOfItems (Raised.notFound name).args :=
      Nat.not_lt_zero _
    rw [Raised.text, if_neg flat, Raised.kindText, if_pos kind]
    simp only [Raised.notFound, Value.display_text]
    rfl
  have front : "Deployment \x60" = "Deployment " ++ "\x60" := by decide
  have back : "\x60 not found" = "\x60" ++ " not found" := by decide
  rw [Raised.message, text, front, back, Failure.marked]
  simp only [Except.toOption, Option.getD_some, Text.ofString_append, Text.append_assoc]

theorem Failure.message_notFound (name : Text) :
    (Failure.listing (some name) (.notFound name)).message = "Error reading deployment " ++
      Failure.marked name ++ ": " ++ ("Deployment " ++ Failure.marked name ++ " not found") := by
  rw [← Raised.message_notFound]
  rfl

namespace Fetcher

/-- The fetch of names from an inventory, where no call waits for another one. -/
def fetchNamed (parent : Text) (inventory : Inventory) (names : List Text) :
    Fetched Facet.Record Facet.Entry :=
  fetch parent Facet.entryOf (fun _ => .free) (names.map .text) inventory.director

def planNamed (parent : Text) (inventory : Inventory) (names : List Text) :
    Plan Facet.Record Facet.Entry :=
  plan parent Facet.entryOf (fun _ => .free) (names.map .text) inventory.director

/-- The fetch of names ends with the given snapshots, and so does its collection in whatever order
its steps are taken. -/
def Brings (inventory : Inventory) (names : List Text)
    (snapshots : List (Snapshot Facet.Entry)) : Prop :=
  ∀ parent, (fetchNamed parent inventory names).outcome = some (.ok snapshots) ∧
    ∃ c, planNamed parent inventory names = .ok c ∧
      ∀ s, c.Reaches c.start s → c.IsFinal s → s.outcome? = some (.ok snapshots)

/-- The fetch of names fails for one of them. No collection begins, and no facet is announced or
called for. -/
def Refuses (inventory : Inventory) (names : List Text) (name : Text) : Prop :=
  let failure : Failure := .listing (some name) (.notFound name)
  ∀ parent, (fetchNamed parent inventory names).outcome = some (.error failure) ∧
    planNamed parent inventory names = .error failure ∧
    (fetchNamed parent inventory names).calls = [] ∧
    (fetchNamed parent inventory names).facetLines = []

variable {inventory : Inventory} {names : List Text} {entries : List Inventory.Entry}
  {snapshots : List (Snapshot Facet.Entry)}

theorem Shows.brings (shows_ : Shows entries snapshots)
    (selected : inventory.selected? names = some entries)
    (writable : ∀ entry ∈ entries, ∀ n ∈ entry.indexes, Writable n) :
    Brings inventory names snapshots := by
  intro parent
  constructor
  · rcases fetch_inventory parent names inventory with
      ⟨missing, _⟩ | ⟨others, same, ⟨found, ended, all⟩ | ⟨_, entry, member, n, index, long⟩⟩
    · cases missing.symm.trans selected
    · cases same.symm.trans selected
      rw [fetchNamed, ended, shows_injective shows_ all]
    · cases same.symm.trans selected
      exact (long (writable entry member n index)).elim
  · rcases Selection.select_director parent names inventory with
      ⟨others, same, handles⟩ | ⟨missing, _⟩
    · cases selected.symm.trans same
      exact ⟨_, by rw [planNamed, plan, handles]; rfl, shows_.outcome_of_isFinal⟩
    · cases missing.symm.trans selected

theorem refuses_of_unknown {before : List Text} {name : Text}
    (known : ∀ n ∈ before, ∃ entry ∈ inventory.deployments, entry.name = n)
    (unknown : ¬ ∃ entry ∈ inventory.deployments, entry.name = name) (rest : List Text) :
    Refuses inventory (before ++ name :: rest) name := by
  intro parent
  have outcome : (Selection.select parent ((before ++ name :: rest).map .text)
      inventory.director).outcome = .error (.listing (some name) (.notFound name)) := by
    rw [(Selection.select_texts inventory.director parent (by simp)).2,
      Selection.findAll_of_unknown known unknown]
  refine ⟨?_, ?_, ?_, ?_⟩
  · rw [fetchNamed, fetch, outcome]
  · rw [planNamed, plan, outcome]
    rfl
  · rw [fetchNamed, fetch, outcome]
  · rw [fetchNamed, fetch, outcome]

theorem Shows.map_name (shows_ : Shows entries snapshots) :
    snapshots.map (·.name) = entries.map (·.name) := by
  induction entries generalizing snapshots with
  | nil => rw [List.map_eq_nil_iff.mp shows_.symm, List.map_nil, List.map_nil]
  | cons entry rest ih =>
    rcases snapshots with _ | ⟨snapshot, others⟩
    · cases shows_
    · obtain ⟨fetched, later⟩ := List.cons.inj shows_
      rw [List.map_cons, List.map_cons, ih later, Inventory.Entry.name_of_fetch fetched]

/-- At each place the snapshot is the one of this name among those of all deployments. -/
theorem Shows.forall₂_listing {listing : List (Snapshot Facet.Entry)}
    (all : Shows inventory.known listing) (shows_ : Shows entries snapshots)
    (found : List.Forall₂ (fun name entry => inventory.find? name = some entry) names entries) :
    List.Forall₂ (fun name snapshot => snapshot ∈ listing ∧ snapshot.name = name)
      names snapshots := by
  induction found generalizing snapshots with
  | nil =>
    rw [List.map_eq_nil_iff.mp shows_.symm]
    exact .nil
  | @cons name entry _ _ first _ ih =>
    rcases snapshots with _ | ⟨snapshot, others⟩
    · cases shows_
    · obtain ⟨head, later⟩ := List.cons.inj shows_
      have fetched : entry.handle.fetch Facet.entryOf = .ok snapshot := head
      obtain ⟨member, rfl⟩ := Inventory.find?_eq_some_iff.mp first
      have among : entry.handle.fetch Facet.entryOf ∈ listing.map .ok := by
        rw [← all]
        exact List.mem_map_of_mem member
      rw [fetched] at among
      obtain ⟨_, inside, same⟩ := List.mem_map.mp among
      rw [Except.ok.inj same] at inside
      exact .cons ⟨inside, Inventory.Entry.name_of_fetch fetched⟩ (ih later)

/-- Names bring the snapshots that the fetch of all brings under them, in their order and as often
as they are given; the names of all bring the same as no name; and the first name that no deployment
has ends the fetch before anything is read. -/
theorem brings_listed_snapshots {document : Value} {inventory : Inventory}
    (accepted : Inventory.ofValue document = .ok inventory)
    (short : ∀ n ∈ document.integers, Writable n) :
    ∃ listing, Brings inventory [] listing ∧ (listing.map (·.name)).Nodup ∧
      (∀ name, name ∈ listing.map (·.name) ↔ ∃ entry ∈ inventory.deployments, entry.name = name) ∧
      ∀ names,
        (names ≠ [] → (∀ name ∈ names, name ∈ listing.map (·.name)) →
          ∃ snapshots, Brings inventory names snapshots ∧
            List.Forall₂ (fun name snapshot => snapshot ∈ listing ∧ snapshot.name = name)
              names snapshots) ∧
        (names = listing.map (·.name) → Brings inventory names listing) ∧
        ∀ before name rest, names = before ++ name :: rest →
          (∀ n ∈ before, n ∈ listing.map (·.name)) → name ∉ listing.map (·.name) →
            Refuses inventory names name ∧
              (Failure.listing (some name) (.notFound name)).message =
                "Error reading deployment " ++ Failure.marked name ++ ": " ++
                  ("Deployment " ++ Failure.marked name ++ " not found") := by
  have writable : ∀ names entries, inventory.selected? names = some entries →
      ∀ entry ∈ entries, ∀ n ∈ entry.indexes, Writable n := by
    intro names entries selected entry member n index
    exact Inventory.writable_of_ofValue short accepted selected entry member n
      (List.mem_append_left _ index)
  obtain ⟨listing, all⟩ := (shows_iff inventory.known).mpr (writable [] _ Inventory.selected?_nil)
  have occurs : ∀ name, name ∈ listing.map (·.name) ↔
      ∃ entry ∈ inventory.deployments, entry.name = name := by
    intro name
    rw [all.map_name, ← inventory.exists_known_iff]
    exact List.mem_map
  refine ⟨listing, all.brings Inventory.selected?_nil (writable [] _ Inventory.selected?_nil), ?_,
    occurs, fun names => ⟨fun filled known => ?_, ?_, ?_⟩⟩
  · rw [all.map_name]
    exact inventory.nodup_known
  · simp only [occurs] at known
    obtain ⟨entries, selected⟩ := (inventory.exists_selected?_iff names).mpr known
    obtain ⟨snapshots, shows_⟩ := (shows_iff entries).mpr (writable names entries selected)
    refine ⟨snapshots, shows_.brings selected (writable names entries selected), ?_⟩
    rw [Inventory.selected?, if_neg (by simpa using filled), mapM_eq_some_iff] at selected
    exact all.forall₂_listing shows_ selected
  · rintro rfl
    have selected := @Inventory.selected?_names_known inventory
    rw [← all.map_name] at selected
    exact all.brings selected (writable _ _ selected)
  · rintro before name rest rfl known unknown
    simp only [occurs] at known unknown
    exact ⟨refuses_of_unknown known unknown rest, Failure.message_notFound name⟩

theorem brings_listed_of_repeated :
    let inventory : Inventory :=
      ⟨[indexedEntry "b" 1, indexedEntry "a" 2, indexedEntry "b" 3]⟩
    ∃ listing, Brings inventory [] listing ∧ (listing.map (·.name)).Nodup ∧
      (∃ snapshots, Brings inventory ["a", "b", "a"] snapshots ∧
        List.Forall₂ (fun name snapshot => snapshot ∈ listing ∧ snapshot.name = name)
          ["a", "b", "a"] snapshots) ∧
      Brings inventory (listing.map (·.name)) listing ∧
      Refuses inventory ["a", "c", "d"] "c" := by
  intro inventory
  have accepted : Inventory.ofValue (Inventory.document
      [rawEntry "b" 1, rawEntry "a" 2, rawEntry "b" 3]) = .ok inventory :=
    Inventory.ofValue_document_iff.mpr (.cons rfl (.cons rfl (.cons rfl .nil)))
  obtain ⟨listing, all, apart, occurs, each⟩ :=
    brings_listed_snapshots accepted (by decide)
  refine ⟨listing, all, apart, (each ["a", "b", "a"]).1 (by simp) fun name member => ?_,
    (each _).2.1 rfl, ((each ["a", "c", "d"]).2.2 ["a"] "c" ["d"] rfl ?_ ?_).1⟩
  · have known : ∀ name ∈ (["a", "b", "a"] : List Text),
        ∃ entry ∈ inventory.deployments, entry.name = name := by decide
    exact (occurs name).mpr (known name member)
  · have known : ∀ name ∈ (["a"] : List Text),
        ∃ entry ∈ inventory.deployments, entry.name = name := by decide
    exact fun name member => (occurs name).mpr (known name member)
  · have unknown : ¬ ∃ entry ∈ inventory.deployments, entry.name = "c" := by decide
    exact fun member => unknown ((occurs "c").mp member)

end Fetcher
end Deployments
