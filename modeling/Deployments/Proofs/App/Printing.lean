import Deployments.Proofs.App.Exit
import Deployments.Proofs.Config
import Deployments.Proofs.Integers

/-!
When a run succeeds, and what it prints. It succeeds exactly if its configuration and its inventory
load, its level is known and all names that the configuration selects are those of deployments; then
it prints the snapshots of the selected deployments, and otherwise nothing.
-/

namespace Deployments.App

open Decimal

section Runs

variable (files : Files) (env : Environment) (order : SetOrder) (path : Text)
  (level : Option Text)

/-- A run starts, and the names that its configuration lists are those of deployments. A name counts
with placeholders replaced and without the spaces around it, unless it is blank. -/
structure Succeeds (config : Config) (inventory : Inventory) : Prop
    extends Starts files env order path level config inventory where
  found : ∀ document, Source.read files order "Configuration" path = .ok document →
    ∀ listed ∈ Config.listedNames (Placeholder.substitute env document),
      Text.strip listed ≠ "" → ∃ entry ∈ inventory.deployments, entry.name = Text.strip listed

end Runs

variable {files : Files} {env : Environment} {order : SetOrder} {path : Text}
  {level : Option Text}

theorem Starts.found_iff {config : Config} {inventory : Inventory}
    (starts : Starts files env order path level config inventory) :
    Succeeds files env order path level config inventory ↔
      ∃ entries, inventory.selected? config.filters.deployments = some entries := by
  obtain ⟨document, read, loaded⟩ := bind_eq_ok_iff.mp starts.configured
  have given := (Config.ofDocument_eq_ok_iff.mp loaded).2
  rw [inventory.exists_selected?_iff, Config.deployments_of_ofValue given]
  constructor
  · intro succeeds name member
    obtain ⟨listed, given, rfl, filled⟩ := (Config.mem_stripped_iff _ name).mp member
    exact succeeds.found document read listed given filled
  · intro known
    refine ⟨starts, fun other same listed member filled => ?_⟩
    cases read.symm.trans same
    exact known _ ((Config.mem_stripped_iff _ _).mpr ⟨listed, member, rfl, filled⟩)

/-- The output is the text of the snapshots of entries. They are the outcome of every collection of
the entries, in whatever order its steps are taken. -/
def Outcome.Prints (outcome : Outcome) (entries : List Inventory.Entry) : Prop :=
  ∃ snapshots text, Fetcher.Shows entries snapshots ∧ Snapshot.render snapshots = .ok text ∧
    outcome.output = text ++ "\n" ∧
    let c : Collection Facet.Record Facet.Entry :=
      ⟨Facet.entryOf, entries.map (·.handle), .free⟩
    ∀ s, c.Reaches c.start s → c.IsFinal s → s.outcome? = some (.ok snapshots)

theorem returned_of_not_succeeds (host : Host) {arguments : List Text}
    (parsed : CommandLine.parse arguments = .ok (.run path level))
    (fails : ∀ config inventory, ¬ Succeeds files env host.order path level config inventory) :
    let outcome := run files env host arguments
    outcome.ending.returned? = some 1 ∧ outcome.output = "" := by
  intro outcome
  rcases run_cases files env host parsed with
    ⟨config, inventory, r, starts, ending, output⟩ | ⟨_, ⟨e, ending⟩, output⟩
  · rcases cycle_cases r host config.filters.deployments inventory with
      ⟨_, ⟨e, failed⟩, empty⟩ | ⟨entries, selected, _⟩
    · exact ⟨congrArg Ending.returned? (ending.trans failed), output.trans empty⟩
    · exact (fails config inventory (starts.found_iff.mpr ⟨entries, selected⟩)).elim
  · exact ⟨congrArg Ending.returned? ending, output⟩

theorem Succeeds.returned_and_prints {config : Config} {inventory : Inventory} (host : Host)
    {arguments : List Text} (parsed : CommandLine.parse arguments = .ok (.run path level))
    (succeeds : Succeeds files env host.order path level config inventory)
    (short : ∀ document,
      Source.read files host.order "Inventory" config.director.inventoryPath = .ok document →
        ∀ n ∈ document.integers, Writable n) :
    let outcome := run files env host arguments
    outcome.ending.returned? = some 0 ∧
      ∃ entries, inventory.selected? config.filters.deployments = some entries ∧
        outcome.Prints entries := by
  intro outcome
  have starts := succeeds.toStarts
  obtain ⟨entries, selected⟩ := starts.found_iff.mp succeeds
  have writable : ∀ entry ∈ entries, ∀ n ∈ entry.integers, Writable n := by
    obtain ⟨document, read, _⟩ := bind_eq_ok_iff.mp starts.listed
    exact Inventory.writable_of_load read (short document read) starts.listed selected
  rcases run_cases files env host parsed with
    ⟨config', inventory', r, starts', ending, output⟩ | ⟨unstarted, _⟩
  · obtain ⟨rfl, rfl⟩ := starts.unique starts'
    rcases cycle_cases r host config'.filters.deployments inventory' with
      ⟨missing, _⟩ | ⟨others, same, ⟨_, snapshots, text, shows_, rendered, finished, printed⟩ |
        ⟨⟨entry, member, n, integer, long⟩, _⟩⟩
    · cases missing.symm.trans selected
    · cases same.symm.trans selected
      refine ⟨congrArg Ending.returned? (ending.trans finished), entries, selected, snapshots, text,
        shows_, rendered, output.trans printed, shows_.outcome_of_isFinal⟩
    · cases same.symm.trans selected
      exact (long (writable entry member n integer)).elim
  · exact (unstarted config inventory starts).elim

/-- One of two listed names is left when the placeholders are replaced. -/
def namedSettings : String :=
  "director: \x7binventory_path: i\x7d\n" ++
    "filters: \x7bdeployments: [' $\x7bNAME\x7d ', '$\x7bOTHER\x7d']\x7d\n" ++
    "logging: \x7blevel: warning\x7d\n"

def namedVariables : Environment := fun name => if name = "NAME" then some "a" else none

end Deployments.App
