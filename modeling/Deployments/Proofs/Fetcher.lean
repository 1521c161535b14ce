import Deployments.Fetcher
import Deployments.Proofs.Collection.Progress
import Deployments.Proofs.Selection
import Deployments.Proofs.Snapshot

/-!
What a fetch from an inventory brings: the snapshots of the selected entries, unless a name is that
of no entry or an index has too many digits.
-/

namespace Deployments

open Decimal

namespace Collection

variable {ρ η : Facet → Type}

/-- Where no call waits and callers handle every failure, a collection brings all snapshots, or the
failure of one of its deployments. -/
theorem collect_cases (parent : Text) (c : Collection ρ η) (free : c.gates = .free)
    (ordinary : ∀ h ∈ c.handles, ∀ e, h.fetch c.map = .error e → e.isOrdinary = true) :
    (∃ snapshots, (c.collect parent).outcome = some (.ok snapshots) ∧
        c.handles.map (·.fetch c.map) = snapshots.map .ok) ∨
      ∃ h ∈ c.handles, ∃ e, (c.collect parent).outcome = some (.error e) ∧
        h.fetch c.map = .error e := by
  obtain ⟨s, reached, final, same⟩ := collect_eq_report parent c
  obtain ⟨outcome, ended⟩ := (done_and_returned_of_free free reached final).2
  have report : (c.collect parent).outcome = some outcome := by rw [same, ← ended]; rfl
  rw [report]
  cases judged_of_reaches reached outcome ended with
  | complete all => exact .inl ⟨_, rfl, all⟩
  | first stored =>
    obtain ⟨h, member, failed⟩ := (coherent_of_reaches reached).held _ stored
    exact .inr ⟨h, member, _, rfl, failed⟩
  | unhandled member failed unhandled =>
    exact absurd ((ordinary _ member _ failed).symm.trans unhandled) (by decide)
  | early _ handle failed unhandled =>
    have member := List.mem_of_getElem? handle
    exact absurd ((ordinary _ member _ failed).symm.trans unhandled) (by decide)

end Collection

namespace Fetcher

/-- Each snapshot is that of the entry at its place. -/
def Shows (entries : List Inventory.Entry) (snapshots : List (Snapshot Facet.Entry)) : Prop :=
  entries.map (·.handle.fetch Facet.entryOf) = snapshots.map .ok

theorem shows_iff (entries : List Inventory.Entry) :
    (∃ snapshots, Shows entries snapshots) ↔
      ∀ entry ∈ entries, ∀ n ∈ entry.indexes, Writable n := by
  induction entries with
  | nil => exact ⟨fun _ => nofun, fun _ => ⟨[], rfl⟩⟩
  | cons entry rest ih =>
    rw [List.forall_mem_cons, ← ih]
    rcases entry.fetch_cases with ⟨writable, snapshot, fetched, _⟩ | ⟨⟨n, member, long⟩, failed⟩
    · constructor
      · rintro ⟨_ | ⟨first, others⟩, all⟩
        · cases all
        · exact ⟨writable, others, (List.cons.inj all).2⟩
      · rintro ⟨_, others, all⟩
        exact ⟨snapshot :: others, by rw [Shows, List.map_cons, fetched, all]; rfl⟩
    · constructor
      · rintro ⟨_ | ⟨first, others⟩, all⟩
        · cases all
        · rw [Shows, List.map_cons, failed] at all
          cases (List.cons.inj all).1
      · rintro ⟨writable, _⟩
        exact (long (writable n member)).elim

/-- What holds of a snapshot exactly if it does of its entry holds of all of them so. -/
theorem Shows.forall_iff {p : Snapshot Facet.Entry → Prop} {q : Inventory.Entry → Prop}
    (each : ∀ entry snapshot, entry.handle.fetch Facet.entryOf = .ok snapshot →
      (p snapshot ↔ q entry))
    {entries : List Inventory.Entry} {snapshots : List (Snapshot Facet.Entry)}
    (shows_ : Shows entries snapshots) :
    (∀ snapshot ∈ snapshots, p snapshot) ↔ ∀ entry ∈ entries, q entry := by
  induction entries generalizing snapshots with
  | nil =>
    rw [List.map_eq_nil_iff.mp shows_.symm]
    simp
  | cons entry rest ih =>
    rcases snapshots with _ | ⟨snapshot, others⟩
    · cases shows_
    · obtain ⟨head, tail⟩ := List.cons.inj shows_
      rw [List.forall_mem_cons, List.forall_mem_cons, each entry snapshot head]
      exact and_congr_right fun _ => ih tail

/-- The snapshots of entries can be printed if all integers of the entries have texts. -/
theorem Shows.exists_render_iff {entries : List Inventory.Entry}
    {snapshots : List (Snapshot Facet.Entry)} (shows_ : Shows entries snapshots) :
    (∃ text, Snapshot.render snapshots = .ok text) ↔
      ∀ entry ∈ entries, ∀ n ∈ entry.measures, Writable n := by
  have sorted : (∃ text, Snapshot.render snapshots = .ok text) ↔
      ∀ snapshot ∈ snapshots, snapshot.toJson.IsWritable := by
    rw [Snapshot.render, Json.exists_render_iff, Json.isWritable_list]
    simp [Snapshot.sorted]
  rw [sorted]
  refine shows_.forall_iff fun entry snapshot fetched => ?_
  rcases entry.fetch_cases with ⟨_, found, same, _, writable⟩ | ⟨_, failed⟩
  · cases same.symm.trans fetched
    exact writable
  · cases failed.symm.trans fetched

theorem shows_injective {entries : List Inventory.Entry}
    {snapshots others : List (Snapshot Facet.Entry)} (shows_ : Shows entries snapshots)
    (same : Shows entries others) : others = snapshots :=
  List.map_injective_iff.mpr (fun _ _ => Except.ok.inj) (same.symm.trans shows_)

/-- Every collection of entries ends with their snapshots, in whatever order its steps are taken. -/
theorem Shows.outcome_of_isFinal {entries : List Inventory.Entry}
    {snapshots : List (Snapshot Facet.Entry)} (shows_ : Shows entries snapshots) :
    let c : Collection Facet.Record Facet.Entry :=
      ⟨Facet.entryOf, entries.map (·.handle), .free⟩
    ∀ s, c.Reaches c.start s → c.IsFinal s → s.outcome? = some (.ok snapshots) := by
  intro c s reached final
  obtain ⟨outcome, ended⟩ := (Collection.done_and_returned_of_free rfl reached final).2
  have fetched : ∀ h ∈ c.handles, ∃ snapshot, h.fetch c.map = .ok snapshot := by
    intro h member
    obtain ⟨entry, selected, rfl⟩ := List.mem_map.mp member
    have found : entry.handle.fetch Facet.entryOf ∈ snapshots.map .ok := by
      rw [← shows_]
      exact List.mem_map_of_mem selected
    obtain ⟨snapshot, _, same⟩ := List.mem_map.mp found
    exact ⟨snapshot, same.symm⟩
  obtain ⟨others, rfl, all⟩ := Collection.snapshots_of_outcome reached fetched ended
  have same : Shows entries others := by
    rw [Shows, ← all, List.map_map]
    rfl
  rw [ended, shows_injective shows_ same]

theorem fetch_error (entry : Inventory.Entry) {e : Failure}
    (failed : entry.handle.fetch Facet.entryOf = .error e) :
    e = .fault .tooManyDigits ∧ ∃ n ∈ entry.indexes, ¬ Writable n := by
  rcases entry.fetch_cases with ⟨_, snapshot, fetched, _⟩ | ⟨long, same⟩
  · cases fetched.symm.trans failed
  · cases same.symm.trans failed
    exact ⟨rfl, long⟩

theorem fetch_inventory (parent : Text) (names : List Text) (inventory : Inventory) :
    let outcome := (fetch parent Facet.entryOf (fun _ => .free) (names.map .text)
      inventory.director).outcome
    (inventory.selected? names = none ∧ ∃ name ∈ names,
        outcome = some (.error (.listing (some name) (.notFound name)))) ∨
      ∃ entries, inventory.selected? names = some entries ∧
        ((∃ snapshots, outcome = some (.ok snapshots) ∧ Shows entries snapshots) ∨
          (outcome = some (.error (.fault .tooManyDigits)) ∧
            ∃ entry ∈ entries, ∃ n ∈ entry.indexes, ¬ Writable n)) := by
  dsimp only
  rw [fetch]
  rcases Selection.select_director parent names inventory with
    ⟨entries, selected, handles⟩ | ⟨missing, name, member, failed⟩
  · right
    refine ⟨entries, selected, ?_⟩
    rw [handles]
    let c : Collection Facet.Record Facet.Entry :=
      ⟨Facet.entryOf, entries.map (·.handle), .free⟩
    have errors : ∀ h ∈ c.handles, ∀ e, h.fetch c.map = .error e →
        e = .fault .tooManyDigits ∧ ∃ entry ∈ entries, ∃ n ∈ entry.indexes, ¬ Writable n := by
      intro h member e failed
      obtain ⟨entry, selected, rfl⟩ := List.mem_map.mp member
      obtain ⟨same, long⟩ := fetch_error entry failed
      exact ⟨same, entry, selected, long⟩
    have ordinary : ∀ h ∈ c.handles, ∀ e, h.fetch c.map = .error e → e.isOrdinary = true := by
      intro h member e failed
      rw [(errors h member e failed).1]
      rfl
    rcases Collection.collect_cases parent c rfl ordinary with
      ⟨snapshots, ended, all⟩ | ⟨h, member, e, ended, failed⟩
    · refine .inl ⟨snapshots, ended, ?_⟩
      rw [Shows, ← all, List.map_map]
      rfl
    · obtain ⟨rfl, long⟩ := errors h member e failed
      exact .inr ⟨ended, long⟩
  · left
    rw [failed]
    exact ⟨missing, name, member, rfl⟩

end Fetcher

end Deployments
