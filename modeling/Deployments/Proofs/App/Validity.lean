import Deployments.Proofs.App.Exit
import Deployments.Proofs.Numbers

/-!
When the output of a run is a JSON text: exactly if all numbers of the selected deployments are
finite. Inventories may give other numbers, as numbers and as texts, and they are printed as words
that the grammar does not know.
-/

namespace Deployments

open Decimal

theorem Json.isText_render_iff {x : Json} (canonical : x.Numbers Binary64.Canonical)
    {text : String} (rendered : x.render = .ok text) :
    Grammar.IsText (text ++ "\n").toList ↔ x.Numbers fun y => y.isFinite = true := by
  obtain ⟨cs, written, rfl⟩ := map_eq_ok_iff.mp rendered
  rw [← isText_write_iff canonical written, String.toList_append, String.toList_ofList]
  rfl

def Inventory.Entry.IsFinite (entry : Entry) : Prop := ∀ x ∈ entry.numbers, x.isFinite = true

instance (entry : Inventory.Entry) : Decidable entry.IsFinite :=
  inferInstanceAs (Decidable (∀ x ∈ entry.numbers, x.isFinite = true))

namespace App

variable {files : Files} {env : Environment} {order : SetOrder} {path : Text}
  {level : Option Text}
  {config : Config} {inventory : Inventory} {entries : List Inventory.Entry}

theorem Starts.isText_iff (starts : Starts files env order path level config inventory)
    (selected : inventory.selected? config.filters.deployments = some entries)
    {snapshots : List (Snapshot Facet.Entry)} (shows_ : Fetcher.Shows entries snapshots)
    {text : String} (rendered : Snapshot.render snapshots = .ok text) :
    Json.Grammar.IsText (text ++ "\n").toList ↔ ∀ entry ∈ entries, entry.IsFinite := by
  have canonical := (shows_.numbers_iff (Binary64.canonical_zero false)).mpr
    (Inventory.canonical_of_load starts.listed selected)
  have finite := shows_.numbers_iff (p := fun x => x.isFinite = true) rfl
  exact (Json.isText_render_iff canonical rendered).trans finite

/-- The output of a run that returns zero is a JSON text exactly if all numbers of the machines in
the selected entries are finite. -/
theorem isText_output_iff (files : Files) (env : Environment) (host : Host)
    {arguments : List Text} {path : Text} {level : Option Text}
    (parsed : CommandLine.parse arguments = .ok (.run path level)) :
    let outcome := run files env host arguments
    outcome.ending.returned? = some 0 →
      ∃ config inventory entries, Starts files env host.order path level config inventory ∧
        inventory.selected? config.filters.deployments = some entries ∧
        (Json.Grammar.IsText outcome.output.toList ↔ ∀ entry ∈ entries, entry.IsFinite) := by
  intro outcome zero
  obtain ⟨config, inventory, entries, starts, selected, snapshots, text, shows_, rendered,
    printed⟩ :=
    shown_of_zero files env host parsed zero
  refine ⟨config, inventory, entries, starts, selected, ?_⟩
  rw [printed]
  exact starts.isText_iff selected shows_ rendered

/-! ### Load averages -/

/-- The inventory of a machine with the load averages. -/
def loadFiles (averages : String) : Files :=
  [Files.named "c" settings,
    Files.named "i" ("deployments:\n- name: a\n  instances:\n  - vm_cid: v\n" ++
      "    vitals:\n      load: [" ++ averages ++ "]\n")]

/-- The entries that a run selects, as far as it gets to them. -/
def selected? (files : Files) (env : Environment) (order : SetOrder) (path : Text) :
    Option (List Inventory.Entry) :=
  (Config.load files env order path).toOption.bind fun config =>
    (Inventory.load files order config.director.inventoryPath).toOption.bind fun inventory =>
      inventory.selected? config.filters.deployments

theorem Starts.selected?_eq (starts : Starts files env order path level config inventory) :
    selected? files env order path = inventory.selected? config.filters.deployments := by
  rw [selected?, starts.configured]
  dsimp only [Except.toOption, Option.bind_some]
  rw [starts.listed]
  rfl

theorem isText_of_finite_averages :
    let outcome := run (loadFiles "1.5, '2e3', 1e-7") noVariables plainHost ["--config", "c"]
    CommandLine.parse ["--config", "c"] = .ok (.run "c" none) ∧
      outcome.ending.returned? = some 0 ∧ Json.Grammar.IsText outcome.output.toList := by
  have zero : (run (loadFiles "1.5, '2e3', 1e-7") noVariables plainHost
      ["--config", "c"]).ending.returned? = some 0 := by
    decide +kernel
  have finite : ∀ entries ∈ selected? (loadFiles "1.5, '2e3', 1e-7") noVariables .asGiven "c",
      ∀ entry ∈ entries, entry.IsFinite := by
    decide +kernel
  obtain ⟨config, inventory, entries, starts, selected, same⟩ :=
    isText_output_iff _ _ _ parse_config zero
  exact ⟨parse_config, zero, same.mpr (finite entries (starts.selected?_eq.trans selected))⟩

theorem not_isText_of_nan :
    let outcome := run (loadFiles ".nan") noVariables plainHost ["--config", "c"]
    CommandLine.parse ["--config", "c"] = .ok (.run "c" none) ∧
      outcome.ending.returned? = some 0 ∧ ¬ Json.Grammar.IsText outcome.output.toList := by
  have zero : (run (loadFiles ".nan") noVariables plainHost
      ["--config", "c"]).ending.returned? = some 0 := by
    decide +kernel
  have special : ∀ entries ∈ selected? (loadFiles ".nan") noVariables .asGiven "c",
      ¬ ∀ entry ∈ entries, entry.IsFinite := by
    decide +kernel
  obtain ⟨config, inventory, entries, starts, selected, snapshots, text, shows_, rendered,
    printed⟩ :=
    shown_of_zero _ _ _ parse_config zero
  refine ⟨parse_config, zero, fun isText => ?_⟩
  rw [printed] at isText
  exact special entries (starts.selected?_eq.trans selected)
    ((starts.isText_iff selected shows_ rendered).mp isText)

end App

end Deployments
