import Mathlib.Data.List.Perm.Basic
import Deployments.Proofs.Fetcher
import Deployments.Proofs.Integers
import Deployments.Proofs.Reading.Settled
import Deployments.Proofs.Snapshot.Sorted

/-!
The order in which deployments are given does not count. The entries of an inventory may stand in
any order, and so may the names that select them; if no two entries have one name, then the same
text is printed.
-/

namespace Deployments

open Decimal Reading

/-- What belongs to the items of a list belongs, in another order, to those of a rearranged one. -/
theorem exists_perm_of_forall₂ {α β : Type} {r : α → β → Prop} {items others : List α}
    {found : List β} (perm : items.Perm others) (all : List.Forall₂ r items found) :
    ∃ found', List.Forall₂ r others found' ∧ found.Perm found' := by
  obtain ⟨found', all', perm'⟩ := List.perm_comp_forall₂ perm.symm all
  exact ⟨found', all', perm'.symm⟩

theorem mapM_eq_some_iff {α β : Type} {f : α → Option β} {items : List α} {found : List β} :
    items.mapM f = some found ↔ List.Forall₂ (fun a b => f a = some b) items found := by
  induction items generalizing found with
  | nil => simp [eq_comm]
  | cons item rest ih =>
    rw [List.mapM_cons, List.forall₂_cons_left_iff]
    simp only [Option.pure_def, Option.bind_eq_bind, Option.bind_eq_some_iff, Option.some.injEq, ih]
    constructor
    · rintro ⟨b, first, others, later, rfl⟩
      exact ⟨b, others, first, later, rfl⟩
    · rintro ⟨b, others, first, later, rfl⟩
      exact ⟨b, first, others, later, rfl⟩

namespace Inventory

/-- The document of an inventory with given raw entries. -/
def document (raw : List Value) : Value := .record [("deployments", .list raw)]

/-- What loading makes of the entries that are read. -/
def ofRead : Checked (List Entry) → Except LoadError Inventory
  | .ok entries => .ok ⟨entries⟩
  | .invalid defects => .error (.invalid title (defects.map (·.under (.name "deployments"))))
  | .aborted fault => .error (.fault fault)

theorem ofValue_document (raw : List Value) :
    ofValue (document raw) = ofRead (Checked.items Entry.read 0 raw) := by
  have fields : readFields [(.text "deployments", .list raw)] =
      ((Checked.items Entry.read 0 raw).under (.name "deployments")).map mk := rfl
  have truthy : (document raw).isTruthy = true := rfl
  rw [ofValue, Source.orEmpty, if_pos truthy]
  simp only [document, Value.record, List.map_cons, List.map_nil, Source.named, List.all_cons,
    Source.isName, List.all_nil, Bool.and_self, if_true, fields]
  cases Checked.items Entry.read 0 raw <;> rfl

theorem ofValue_document_iff {raw : List Value} {inventory : Inventory} :
    ofValue (document raw) = .ok inventory ↔
      List.Forall₂ (fun v entry => Entry.read v = .ok entry) raw inventory.deployments := by
  rw [ofValue_document, ← Checked.items_eq_ok_iff (i := 0)]
  cases Checked.items Entry.read 0 raw with
  | ok entries =>
    obtain ⟨deployments⟩ := inventory
    simp [ofRead]
  | invalid | aborted => simp [ofRead]

/-- No two entries have one name. -/
def Distinct (inventory : Inventory) : Prop := (inventory.deployments.map (·.name)).Nodup

theorem record_of_new {entries : List Entry} {new : Entry}
    (absent : new.name ∉ entries.map (·.name)) : record entries new = entries ++ [new] := by
  induction entries with
  | nil => rfl
  | cons old rest ih =>
    simp only [List.map_cons, List.mem_cons, not_or] at absent
    rw [record, if_neg (Ne.symm absent.1), ih absent.2, List.cons_append]

/-- If all names are distinct, then all entries count, in the order in which they are given. -/
theorem Distinct.known {inventory : Inventory} (distinct : inventory.Distinct) :
    inventory.known = inventory.deployments := by
  have all : ∀ more entries : List Entry, ((entries ++ more).map (·.name)).Nodup →
      more.foldl record entries = entries ++ more := by
    intro more
    induction more with
    | nil => simp
    | cons entry rest ih =>
      intro entries apart
      have absent : entry.name ∉ entries.map (·.name) := by
        rw [List.map_append, List.nodup_append] at apart
        exact fun member => apart.2.2 _ member _ List.mem_cons_self rfl
      rw [List.foldl_cons, record_of_new absent, ih _ (by simpa using apart), List.append_assoc,
        List.singleton_append]
  exact all inventory.deployments [] distinct

theorem Distinct.eq_of_name {inventory : Inventory} (distinct : inventory.Distinct)
    {entry other : Entry} (member : entry ∈ inventory.deployments)
    (member' : other ∈ inventory.deployments) (same : entry.name = other.name) : entry = other :=
  List.inj_on_of_nodup_map distinct member member' same

theorem Distinct.find?_eq_some_iff {inventory : Inventory} (distinct : inventory.Distinct)
    {name : Text} {entry : Entry} :
    inventory.find? name = some entry ↔ entry ∈ inventory.deployments ∧ entry.name = name := by
  rw [Inventory.find?_eq_some_iff, distinct.known]

variable {inventory other : Inventory}

theorem Distinct.of_perm (distinct : inventory.Distinct)
    (perm : inventory.deployments.Perm other.deployments) : other.Distinct :=
  (perm.map _).nodup_iff.mp distinct

theorem Distinct.find?_of_perm (distinct : inventory.Distinct)
    (perm : inventory.deployments.Perm other.deployments) :
    inventory.find? = other.find? := by
  funext name
  refine Option.ext fun entry => ?_
  rw [distinct.find?_eq_some_iff, (distinct.of_perm perm).find?_eq_some_iff, perm.mem_iff]

/-- Rearranged names select the same entries of a rearranged inventory, in another order. -/
theorem Distinct.selected?_of_perm (distinct : inventory.Distinct)
    (perm : inventory.deployments.Perm other.deployments) {names names' : List Text}
    (rearranged : names.Perm names') {entries : List Entry}
    (selected : inventory.selected? names = some entries) :
    ∃ entries', other.selected? names' = some entries' ∧ entries.Perm entries' := by
  unfold selected? at selected ⊢
  rw [← rearranged.isEmpty_eq]
  by_cases empty : names.isEmpty = true
  · rw [if_pos empty] at selected ⊢
    cases selected
    rw [distinct.known, (distinct.of_perm perm).known]
    exact ⟨_, rfl, perm⟩
  · rw [if_neg empty] at selected ⊢
    rw [← distinct.find?_of_perm perm]
    simp only [mapM_eq_some_iff] at selected ⊢
    exact exists_perm_of_forall₂ rearranged selected

end Inventory

/-! ### The text that is printed -/

/-- The deployments of given names are selected of an inventory, their collection ends, and in
whatever order its steps are taken, the snapshots it brings have the given text. -/
def Inventory.Prints (inventory : Inventory) (names : List Text) (text : String) :
    Prop :=
  ∃ handles, (∀ parent, (Selection.select parent (names.map .text) inventory.director).outcome =
      .ok handles) ∧
    let c : Collection Facet.Record Facet.Entry := ⟨Facet.entryOf, handles, .free⟩
    (∃ s, c.Reaches c.start s ∧ c.IsFinal s) ∧
      ∀ s, c.Reaches c.start s → c.IsFinal s →
        ∃ snapshots, s.outcome? = some (.ok snapshots) ∧ Snapshot.render snapshots = .ok text

namespace Fetcher

theorem Shows.prints {inventory : Inventory} {names : List Text} {entries : List Inventory.Entry}
    {snapshots : List (Snapshot Facet.Entry)} {text : String}
    (selected : inventory.selected? names = some entries) (shows_ : Shows entries snapshots)
    (rendered : Snapshot.render snapshots = .ok text) : inventory.Prints names text := by
  refine ⟨entries.map (·.handle), fun parent => ?_, ?_, fun s reached final => ?_⟩
  · rcases Selection.select_director parent names inventory with
      ⟨others, same, handles⟩ | ⟨missing, _⟩
    · cases selected.symm.trans same
      exact handles
    · cases selected.symm.trans missing
  · obtain ⟨s, reached, final, _⟩ := Collection.collect_eq_report ""
      (⟨Facet.entryOf, entries.map (·.handle), .free⟩ : Collection Facet.Record Facet.Entry)
    exact ⟨s, reached, final⟩
  · exact ⟨snapshots, shows_.outcome_of_isFinal s reached final, rendered⟩

theorem Shows.exists_entry {entries : List Inventory.Entry}
    {snapshots : List (Snapshot Facet.Entry)} (shows_ : Shows entries snapshots)
    {snapshot : Snapshot Facet.Entry} (member : snapshot ∈ snapshots) :
    ∃ entry ∈ entries, entry.handle.fetch Facet.entryOf = .ok snapshot ∧
      snapshot.name = entry.name := by
  have found : .ok snapshot ∈ entries.map (·.handle.fetch Facet.entryOf) := by
    rw [shows_]
    exact List.mem_map_of_mem member
  obtain ⟨entry, inside, fetched⟩ := List.mem_map.mp found
  exact ⟨entry, inside, fetched, Inventory.Entry.name_of_fetch fetched⟩

/-- Rearranged entries are shown by their snapshots, in another order. -/
theorem Shows.of_perm {entries entries' : List Inventory.Entry}
    {snapshots : List (Snapshot Facet.Entry)} (shows_ : Shows entries snapshots)
    (perm : entries.Perm entries') :
    ∃ snapshots', Shows entries' snapshots' ∧ snapshots'.Perm snapshots := by
  have writable := (shows_iff entries).mp ⟨snapshots, shows_⟩
  obtain ⟨snapshots', shows'⟩ := (shows_iff entries').mpr fun entry member =>
    writable entry (perm.mem_iff.mpr member)
  refine ⟨snapshots', shows', ?_⟩
  rw [← List.map_perm_map_iff (f := (Except.ok : _ → Except Failure _)) fun _ _ => Except.ok.inj]
  have fetched := perm.map (·.handle.fetch Facet.entryOf)
  rw [shows_, shows'] at fetched
  exact fetched.symm

end Fetcher

/-- Rearranged entries and names print the same text. -/
theorem Inventory.Distinct.prints_of_perm {inventory other : Inventory}
    (distinct : inventory.Distinct) (perm : inventory.deployments.Perm other.deployments)
    {names names' : List Text} (rearranged : names.Perm names')
    {entries : List Entry} (selected : inventory.selected? names = some entries)
    (writable : ∀ entry ∈ entries, ∀ n ∈ entry.integers, Writable n) :
    ∃ text, inventory.Prints names text ∧ other.Prints names' text := by
  obtain ⟨snapshots, shows_⟩ := (Fetcher.shows_iff entries).mpr fun entry member n index =>
    writable entry member n (List.mem_append_left _ index)
  obtain ⟨text, rendered⟩ := shows_.exists_render_iff.mpr fun entry member n measure =>
    writable entry member n (List.mem_append_right _ measure)
  obtain ⟨entries', selected', others⟩ := distinct.selected?_of_perm perm rearranged selected
  obtain ⟨snapshots', shows', snapshotsPerm⟩ := shows_.of_perm others
  have alone : ∀ a ∈ snapshots, ∀ b ∈ snapshots, a.name = b.name → a = b := by
    intro a member b member' same
    obtain ⟨entry, inside, fetched, name⟩ := shows_.exists_entry member
    obtain ⟨entry', inside', fetched', name'⟩ := shows_.exists_entry member'
    have one : entry = entry' := distinct.eq_of_name (mem_of_selected? selected inside)
      (mem_of_selected? selected inside') (name.symm.trans (same.trans name'))
    subst one
    exact Except.ok.inj (fetched.symm.trans fetched')
  have rendered' : Snapshot.render snapshots' = .ok text := by
    rw [← rendered, Snapshot.render, Snapshot.sorted_eq_of_perm snapshotsPerm alone,
      ← Snapshot.render]
  exact ⟨text, shows_.prints selected rendered, shows'.prints selected' rendered'⟩

/-- Raw entries with distinct names, the names that select them and the steps of the collection may
stand in any order: the text is the same. Whatever the names of snapshots are, it is their stable
sort that is printed, so nothing changes if those of one name keep their order. -/
theorem prints_in_any_order :
    (∀ (raw others : List Value) (inventory : Inventory) (names names' : List Text),
      Inventory.ofValue (Inventory.document raw) = .ok inventory → inventory.Distinct →
      (∀ n ∈ (Value.list raw).integers, Writable n) →
      (∀ name ∈ names, ∃ entry ∈ inventory.deployments, entry.name = name) →
      raw.Perm others → names.Perm names' →
      ∃ other text, Inventory.ofValue (Inventory.document others) = .ok other ∧
        inventory.Prints names text ∧ other.Prints names' text) ∧
    ∀ snapshots : List (Snapshot Facet.Entry),
      (∃ arranged, Snapshot.IsStableSort snapshots arranged ∧
        Snapshot.render snapshots = (Json.list (arranged.map Snapshot.toJson)).render) ∧
      ∀ others, (∀ name, Snapshot.named name others = Snapshot.named name snapshots) →
        Snapshot.render others = Snapshot.render snapshots := by
  refine ⟨?_, fun snapshots => ⟨?_, fun others same => ?_⟩⟩
  · intro raw others inventory names names' accepted distinct short existing perm rearranged
    obtain ⟨deployments, read, entries⟩ :=
      exists_perm_of_forall₂ perm (Inventory.ofValue_document_iff.mp accepted)
    obtain ⟨selection, selected⟩ := (inventory.exists_selected?_iff names).mpr existing
    have integers : ∀ n ∈ (Inventory.document raw).integers, Writable n := by
      simpa [Inventory.document, Value.record, Value.integers, Value.entryIntegers] using short
    have writable := Inventory.writable_of_ofValue integers accepted selected
    let other : Inventory := ⟨deployments⟩
    have permuted : inventory.deployments.Perm other.deployments := entries
    obtain ⟨text, first, second⟩ := distinct.prints_of_perm permuted rearranged selected writable
    exact ⟨other, text, Inventory.ofValue_document_iff.mpr read, first, second⟩
  · exact ⟨_, Snapshot.isStableSort_sorted snapshots, rfl⟩
  · rw [Snapshot.render, Snapshot.sorted_eq_of_named same, ← Snapshot.render]

/-- A raw entry with one machine of a given index. -/
def rawEntry (name : Text) (index : Int) : Value :=
  .record [("name", .text name),
    ("instances", .list [.record [("vm_cid", .text "vm"), ("index", .int index)]])]

def indexedEntry (name : Text) (index : Int) : Inventory.Entry :=
  { name, errands := [], releases := [], stemcells := []
    instances := [
      { agentId := "", jobName := "", id := "", index := some index, jobState := ""
        bootstrap := false, ips := [], az := "", vmId := "vm", vmType := "", resourcePool := ""
        resurrectionPaused := false, vitals := .absent, processes := [] }] }

/-- A snapshot with one errand. -/
def errandSnapshot (name errand : Text) : Snapshot Facet.Entry :=
  ⟨name, [⟨errand⟩], [], [], []⟩

theorem prints_two_in_any_order :
    (∃ other text,
      Inventory.ofValue (Inventory.document [rawEntry "a" 2, rawEntry "b" 1]) = .ok other ∧
        (Inventory.mk [indexedEntry "b" 1, indexedEntry "a" 2]).Prints ["a", "b"] text ∧
        other.Prints ["b", "a"] text) ∧
      Snapshot.render [errandSnapshot "b" "x", errandSnapshot "a" "y", errandSnapshot "a" "z"] =
        Snapshot.render
          [errandSnapshot "a" "y", errandSnapshot "b" "x", errandSnapshot "a" "z"] := by
  constructor
  · refine prints_in_any_order.1 [rawEntry "b" 1, rawEntry "a" 2] [rawEntry "a" 2, rawEntry "b" 1]
      ⟨[indexedEntry "b" 1, indexedEntry "a" 2]⟩ ["a", "b"] ["b", "a"] ?_ ?_ ?_ ?_ (.swap _ _ _)
      (.swap _ _ _)
    · exact Inventory.ofValue_document_iff.mpr (.cons rfl (.cons rfl .nil))
    · have distinct : (["b", "a"] : List Text).Nodup := by decide
      exact distinct
    · decide
    · decide
  · refine (prints_in_any_order.2 _).2 _ fun name => ?_
    by_cases twice : ("a" : Text) = name
    · subst twice
      simp [Snapshot.named, errandSnapshot]
    · simp [Snapshot.named, errandSnapshot, List.filter_cons, twice]

end Deployments
