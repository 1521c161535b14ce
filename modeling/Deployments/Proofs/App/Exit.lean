import Deployments.Proofs.App.Start
import Deployments.Proofs.Yaml.Hexadecimal

/-!
How runs end. A run that is asked for returns a code, but for one cause: an integer of a selected
deployment has more digits than can be converted to text. Inventories give such integers in base
sixteen, and nothing handles the failure.
-/

namespace Deployments

open Decimal

namespace App

/-- The run returns, with success or else without output. -/
def Outcome.Returns (o : Outcome) : Prop :=
  o.ending.returned? = some 0 ∨ (o.ending.returned? = some 1 ∧ o.output = "")

theorem returns_cycle_iff (r : Registry) (host : Host) (names : List Text)
    (inventory : Inventory) :
    (cycle r host names inventory).Returns ↔
      ∀ entries, inventory.selected? names = some entries →
        ∀ entry ∈ entries, ∀ n ∈ entry.integers, Writable n := by
  rcases cycle_cases r host names inventory with
    ⟨missing, ⟨e, failed⟩, empty⟩ |
    ⟨entries, selected, ⟨writable, _, _, _, _, finished, _⟩ | ⟨long, ⟨e, escaped⟩, _⟩⟩
  · constructor
    · intro _ entries selected
      cases missing.symm.trans selected
    · intro _
      exact .inr ⟨congrArg Ending.returned? failed, empty⟩
  · constructor
    · intro _ others same
      cases selected.symm.trans same
      exact writable
    · intro _
      exact .inl (congrArg Ending.returned? finished)
  · have code : (cycle r host names inventory).ending.returned? = none := by rw [escaped]; rfl
    constructor
    · rintro (success | ⟨failure, _⟩)
      · cases code.symm.trans success
      · cases code.symm.trans failure
    · intro all
      obtain ⟨entry, member, n, integer, long⟩ := long
      exact (long (all entries selected entry member n integer)).elim

section Runs

variable {files : Files} {env : Environment} {arguments : List Text} {path : Text}
  {level : Option Text}

theorem Starts.returns_iff (host : Host) {config : Config} {inventory : Inventory}
    (parsed : CommandLine.parse arguments = .ok (.run path level))
    (starts : Starts files env host.order path level config inventory) :
    (run files env host arguments).Returns ↔
      ∀ entries, inventory.selected? config.filters.deployments = some entries →
        ∀ entry ∈ entries, ∀ n ∈ entry.integers, Writable n := by
  rcases run_cases files env host parsed with
    ⟨config', inventory', r, starts', ending, output⟩ | ⟨unstarted, _⟩
  · obtain ⟨rfl, rfl⟩ := starts.unique starts'
    rw [← returns_cycle_iff r host, Outcome.Returns, Outcome.Returns, ending, output]
  · exact (unstarted config inventory starts).elim

theorem returns_of_unstarted (host : Host)
    (parsed : CommandLine.parse arguments = .ok (.run path level))
    (unstarted : ∀ config inventory, ¬ Starts files env host.order path level config inventory) :
    (run files env host arguments).Returns := by
  rcases run_cases files env host parsed with
    ⟨config, inventory, _, starts, _⟩ | ⟨_, ⟨e, ending⟩, output⟩
  · exact (unstarted config inventory starts).elim
  · exact .inr ⟨congrArg Ending.returned? ending, output⟩

/-- A run that is asked for returns exactly if no integer of a selected entry has too many digits,
whatever else fails. -/
theorem returns_run_iff (files : Files) (env : Environment) (host : Host)
    {arguments : List Text} {path : Text} {level : Option Text}
    (parsed : CommandLine.parse arguments = .ok (.run path level)) :
    (run files env host arguments).Returns ↔
      ∀ config inventory entries, Starts files env host.order path level config inventory →
        inventory.selected? config.filters.deployments = some entries →
          ∀ entry ∈ entries, ∀ n ∈ entry.integers, Writable n := by
  by_cases started : ∃ config inventory, Starts files env host.order path level config inventory
  · obtain ⟨config, inventory, starts⟩ := started
    rw [starts.returns_iff host parsed]
    constructor
    · intro all config' inventory' entries starts' selected
      obtain ⟨rfl, rfl⟩ := starts.unique starts'
      exact all entries selected
    · intro all entries selected
      exact all config inventory entries starts selected
  · have unstarted : ∀ config inventory,
        ¬ Starts files env host.order path level config inventory :=
      fun config inventory starts => started ⟨config, inventory, starts⟩
    constructor
    · intro _ config inventory entries starts
      exact (unstarted config inventory starts).elim
    · intro _
      exact returns_of_unstarted host parsed unstarted

end Runs

/-! ### The inventory of one machine -/

/-- A configuration, and the inventory of a machine with the index. -/
def machineFiles (settings : String) (index : List Char) : Files :=
  [Files.named "c" settings, Files.named "i" (String.ofList (Yaml.machineText index))]

theorem find_settings (settings : String) (index : List Char) :
    (machineFiles settings index).find "c" = .file (Text.encode settings) := by
  unfold machineFiles Files.named
  generalize Text.encode (String.ofList (Yaml.machineText index)) = others
  generalize Text.encode settings = bytes
  cbv

theorem find_machine (settings : String) (index : List Char) :
    (machineFiles settings index).find "i" =
      .file (Text.encode (String.ofList (Yaml.machineText index))) := by
  unfold machineFiles Files.named
  generalize Text.encode (String.ofList (Yaml.machineText index)) = bytes
  generalize Text.encode settings = others
  cbv

theorem load_settings {env : Environment} {order : SetOrder} {settings : String} {config : Config}
    (read : ((Source.parse order (Text.encode settings)).bind (Config.ofDocument env)).toOption =
      some config)
    (index : List Char) : Config.load (machineFiles settings index) env order "c" = .ok config := by
  rw [Config.load, Source.read, find_settings]
  dsimp only
  generalize (Source.parse _ _).bind _ = loaded at read
  cases loaded with
  | error e => cases read
  | ok config =>
    cases read
    rfl

theorem parse_config : CommandLine.parse ["--config", "c"] = .ok (.run "c" none) := by
  rfl

/-! ### The greatest index in base sixteen that has a text, and the next one -/

def noVariables : Environment := fun _ => none

def plainHost : Host := ⟨80, .asGiven, "0.00"⟩

def settings : String := "director: \x7binventory_path: i\x7d\n"

def machineConfig : Config := ⟨⟨"i"⟩, .absent, .absent⟩

theorem starts_machine (n : Nat) :
    Starts (machineFiles settings (Yaml.greatest n)) noVariables .asGiven "c" none machineConfig
      (Inventory.ofIndex (16 ^ (n + 1) - 1 : Nat)) where
  configured := load_settings (by decide +kernel) _
  known := by decide +kernel
  listed := Inventory.load_machineText (find_machine settings _)

/-- All that is converted to text of the inventory of one machine is the index. -/
theorem forall_integers_ofIndex (index : Int) (p : Int → Prop) :
    (∀ entries, (Inventory.ofIndex index).selected? machineConfig.filters.deployments =
        some entries → ∀ entry ∈ entries, ∀ n ∈ entry.integers, p n) ↔ p index := by
  have selected : ∃ entry, (Inventory.ofIndex index).selected? machineConfig.filters.deployments =
      some [entry] ∧ entry.integers = [index] := ⟨_, rfl, rfl⟩
  obtain ⟨entry, selected, integers⟩ := selected
  simp [selected, integers]

theorem returns_of_greatest_index :
    CommandLine.parse ["--config", "c"] = .ok (.run "c" none) ∧
      (run (machineFiles settings (Yaml.greatest 3570)) noVariables plainHost
        ["--config", "c"]).Returns := by
  refine ⟨parse_config, (returns_run_iff _ _ _ parse_config).mpr ?_⟩
  intro config inventory entries starts
  obtain ⟨rfl, rfl⟩ := (starts_machine 3570).unique starts
  refine (forall_integers_ofIndex _ Writable).mpr ?_ entries
  rw [writable_iff, Int.natAbs_natCast]
  decide +kernel

/-- A longer index ends the program with a failure that nothing handles. -/
theorem not_returns_of_longer_index :
    CommandLine.parse ["--config", "c"] = .ok (.run "c" none) ∧
      ¬ (run (machineFiles settings (Yaml.greatest 3571)) noVariables plainHost
        ["--config", "c"]).Returns := by
  refine ⟨parse_config, ?_⟩
  rw [(starts_machine 3571).returns_iff plainHost parse_config,
    forall_integers_ofIndex _ Writable, writable_iff, Int.natAbs_natCast]
  decide +kernel

end App

end Deployments
