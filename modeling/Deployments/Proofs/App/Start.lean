import Deployments.App
import Deployments.Proofs.CommandLine
import Deployments.Proofs.Fetcher

/-!
How a run begins and what its cycle brings. A run starts if its configuration and its inventory load
and its log level is one that there is.
-/

namespace Deployments

open Decimal

namespace Registry

def levelNames : List Text := levelNumbers.map Prod.fst

theorem isSome_lookup_iff {α : Type} (entries : List (Text × α)) (key : Text) :
    (entries.lookup key).isSome = true ↔ key ∈ entries.map Prod.fst := by
  simp only [List.lookup_isSome_iff, List.mem_map, beq_iff_eq]
  constructor <;> exact fun ⟨entry, member, same⟩ => ⟨entry, member, same.symm⟩

theorem exists_levelNumber_iff (name : Text) :
    (∃ n, levelNumber name = .ok n) ↔ Text.upper name ∈ levelNames := by
  rw [levelNames, ← isSome_lookup_iff]
  cases known : levelNumbers.lookup (Text.upper name) with
  | some n => simp [levelNumber, known]
  | none =>
    simp only [levelNumber, known]
    split
    · simp
    · split <;> simp

/-- Setting a logger up with a level fails exactly if there is no such level. -/
theorem setUp_cases (r : Registry) (name level : Text) :
    (Text.upper level ∈ levelNames ∧ ∃ s l, r.setUp name (.text level) = (s, .ok l)) ∨
      (Text.upper level ∉ levelNames ∧ ∃ s e, r.setUp name (.text level) = (s, .error e)) := by
  rw [← exists_levelNumber_iff, setUp, levelOfValue]
  cases levelNumber level with
  | ok n => exact .inl ⟨⟨n, rfl⟩, _, _, rfl⟩
  | error e => exact .inr ⟨nofun, _, _, rfl⟩

end Registry

namespace App

/-- The code that is returned. Nothing is returned if the command line ends the program, or a
failure that nothing handles. -/
def Ending.returned? : Ending → Option Nat
  | help | misused _ | escaped _ => none
  | ending => some ending.exitCode

/-- The level that a run logs with: the one given to it, or else that of the environment if it is
not empty, or else the configured one. -/
def effectiveLevel (env : Environment) (level : Option Text) (config : Config) : Text :=
  match level with
  | some name => name
  | none =>
    match env CommandLine.levelVariable with
    | some name => if name = "" then config.logging.level else name
    | none => config.logging.level

theorem firstGiven_eq (env : Environment) {level : Option Text} (config : Config)
    (chosen : ∀ name, level = some name → name ∈ CommandLine.levels) :
    firstGiven [level.orElse fun _ => env CommandLine.levelVariable] config.logging.level =
      effectiveLevel env level config := by
  cases level with
  | some name =>
    have given : name ≠ "" := by
      rintro rfl
      exact absurd (chosen "" rfl) (by decide)
    simp [firstGiven, effectiveLevel, given]
  | none =>
    cases given : env CommandLine.levelVariable with
    | none => simp [firstGiven, effectiveLevel, given]
    | some name => by_cases empty : name = "" <;> simp [firstGiven, effectiveLevel, given, empty]

/-- A run starts, with its configuration and its inventory. -/
structure Starts (files : Files) (env : Environment) (order : SetOrder) (path : Text)
    (level : Option Text) (config : Config) (inventory : Inventory) : Prop where
  configured : Config.load files env order path = .ok config
  known : Text.upper (effectiveLevel env level config) ∈ Registry.levelNames
  listed : Inventory.load files order config.director.inventoryPath = .ok inventory

theorem Starts.unique {files : Files} {env : Environment} {order : SetOrder} {path : Text}
    {level : Option Text} {config config' : Config} {inventory inventory' : Inventory}
    (starts : Starts files env order path level config inventory)
    (starts' : Starts files env order path level config' inventory') :
    config' = config ∧ inventory' = inventory := by
  have same : config' = config := Except.ok.inj (starts'.configured.symm.trans starts.configured)
  subst same
  exact ⟨rfl, Except.ok.inj (starts'.listed.symm.trans starts.listed)⟩

/-- A run starts and goes on with its cycle, or it does not start and prints nothing. -/
theorem run_cases (files : Files) (env : Environment) (host : Host) {arguments : List Text}
    {path : Text} {level : Option Text}
    (parsed : CommandLine.parse arguments = .ok (.run path level)) :
    let outcome := run files env host arguments
    (∃ config inventory r, Starts files env host.order path level config inventory ∧
        outcome.ending = (cycle r host config.filters.deployments inventory).ending ∧
        outcome.output = (cycle r host config.filters.deployments inventory).output) ∨
      ((∀ config inventory, ¬ Starts files env host.order path level config inventory) ∧
        (∃ e, outcome.ending = .unstarted e) ∧ outcome.output = "") := by
  cases loaded : Config.load files env host.order path with
  | error e =>
    right
    simp only [run, parsed, loaded]
    refine ⟨fun config inventory starts => ?_, ⟨_, rfl⟩, trivial⟩
    cases loaded.symm.trans starts.configured
  | ok config =>
    simp only [run, parsed, loaded, firstGiven_eq env config (CommandLine.level_of_parse parsed)]
    rcases Registry.initial.setUp_cases logger (effectiveLevel env level config) with
      ⟨known, r, l, setUp⟩ | ⟨unknown, r, e, setUp⟩
    · simp only [setUp, runWith]
      cases listed : Inventory.load files host.order config.director.inventoryPath with
      | error e =>
        right
        refine ⟨fun other inventory starts => ?_, ⟨_, rfl⟩, rfl⟩
        cases loaded.symm.trans starts.configured
        cases listed.symm.trans starts.listed
      | ok inventory => exact .inl ⟨config, inventory, r, ⟨loaded, known, listed⟩, rfl, rfl⟩
    · right
      simp only [setUp]
      refine ⟨fun other inventory starts => ?_, ⟨_, rfl⟩, trivial⟩
      cases loaded.symm.trans starts.configured
      exact unknown starts.known

/-- A cycle prints the snapshots of the selected entries, or fails for a name that no entry has, or
comes upon an integer with too many digits. -/
theorem cycle_cases (r : Registry) (host : Host) (names : List Text)
    (inventory : Inventory) :
    let outcome := cycle r host names inventory
    (inventory.selected? names = none ∧ (∃ e, outcome.ending = .failed e) ∧
        outcome.output = "") ∨
      ∃ entries, inventory.selected? names = some entries ∧
        (((∀ entry ∈ entries, ∀ n ∈ entry.integers, Writable n) ∧
            ∃ snapshots text, Fetcher.Shows entries snapshots ∧
              Snapshot.render snapshots = .ok text ∧ outcome.ending = .finished ∧
              outcome.output = text ++ "\n") ∨
          ((∃ entry ∈ entries, ∃ n ∈ entry.integers, ¬ Writable n) ∧
            (∃ e, outcome.ending = .escaped e) ∧ outcome.output = "")) := by
  dsimp only
  unfold cycle
  dsimp only
  rcases Fetcher.fetch_inventory logger names inventory with
    ⟨missing, name, member, failed⟩ |
    ⟨entries, selected, ⟨snapshots, fetched, all⟩ | ⟨failed, entry, member, n, index, long⟩⟩
  · left
    rw [failed]
    exact ⟨missing, ⟨_, rfl⟩, rfl⟩
  · right
    refine ⟨entries, selected, ?_⟩
    simp only [fetched]
    have indexes := (Fetcher.shows_iff entries).mp ⟨snapshots, all⟩
    have printed := all.exists_render_iff
    cases rendered : Snapshot.render snapshots with
    | ok text =>
      left
      have measures := printed.mp ⟨text, rendered⟩
      refine ⟨?_, snapshots, text, all, rendered, rfl, rfl⟩
      intro entry member n integer
      rcases List.mem_append.mp integer with index | measure
      · exact indexes entry member n index
      · exact measures entry member n measure
    | error f =>
      right
      have long : ¬ ∀ entry ∈ entries, ∀ n ∈ entry.measures, Writable n := by
        rw [← printed, rendered]
        nofun
      push Not at long
      obtain ⟨entry, member, n, measure, long⟩ := long
      exact ⟨⟨entry, member, n, List.mem_append_right _ measure, long⟩, ⟨_, rfl⟩, rfl⟩
  · right
    refine ⟨entries, selected, .inr ?_⟩
    rw [failed]
    exact ⟨⟨entry, member, n, List.mem_append_left _ index, long⟩, ⟨_, rfl⟩, rfl⟩

/-- A run that returns zero prints the snapshots of the selected entries. -/
theorem shown_of_zero (files : Files) (env : Environment) (host : Host)
    {arguments : List Text} {path : Text} {level : Option Text}
    (parsed : CommandLine.parse arguments = .ok (.run path level)) :
    let outcome := run files env host arguments
    outcome.ending.returned? = some 0 →
      ∃ config inventory entries, Starts files env host.order path level config inventory ∧
        inventory.selected? config.filters.deployments = some entries ∧
        ∃ snapshots text, Fetcher.Shows entries snapshots ∧
          Snapshot.render snapshots = .ok text ∧ outcome.output = text ++ "\n" := by
  intro outcome zero
  rcases run_cases files env host parsed with
    ⟨config, inventory, r, starts, ending, output⟩ | ⟨_, ⟨e, ending⟩, _⟩
  · have code := (congrArg Ending.returned? ending).symm.trans zero
    rcases cycle_cases r host config.filters.deployments inventory with
      ⟨_, ⟨e, failed⟩, _⟩ |
      ⟨entries, selected, ⟨_, snapshots, text, shows_, rendered, _, printed⟩ |
        ⟨_, ⟨e, escaped⟩, _⟩⟩
    · rw [failed] at code
      cases code
    · exact ⟨config, inventory, entries, starts, selected, snapshots, text, shows_, rendered,
        output.trans printed⟩
    · rw [escaped] at code
      cases code
  · cases (congrArg Ending.returned? ending).symm.trans zero

end App

end Deployments
