import Deployments.Proofs.App.Start
import Deployments.Proofs.Placeholder

/-!
What a run takes from its environment and from the log level it is given. The environment counts
only for the level, where none is given, for the placeholders that the values of the configuration
mention, and for the width of the help; the level counts only for what is logged.
-/

namespace Deployments

theorem Config.load_congr {files : Files} {env env' : Environment} {order : SetOrder}
    {path : Text}
    (same : ∀ document, Source.read files order "Configuration" path = .ok document →
      ∀ name, Placeholder.Mentions name document → env.Same env' name) :
    load files env order path = load files env' order path := by
  unfold load
  cases read : Source.read files order "Configuration" path with
  | error e => rfl
  | ok document =>
    simp only [Except.bind, ofDocument, ofValue, Placeholder.substitute_congr (same document read)]

theorem CommandLine.columns_congr {env env' : Environment}
    (same : env.Same env' columnsVariable) (terminal : Nat) :
    columns env terminal = columns env' terminal := by
  have getD : ∀ env : Environment, columns env terminal =
      (positive? ((env columnsVariable).getD "")).getD terminal := by
    intro env
    unfold columns
    cases env columnsVariable with
    | none =>
      have blank : positive? "" = none := by decide +kernel
      simp [blank]
    | some text => rfl
  rw [getD, getD, same]

namespace App

/-- What is seen of an outcome besides what is logged: the exit code and the output. -/
def Outcome.shown (outcome : Outcome) : Nat × String :=
  (outcome.ending.exitCode, outcome.output)

/-- Neither the loggers nor the time that a cycle takes count for what it shows. -/
theorem shown_cycle (r r' : Registry) (host host' : Host) (names : List Text)
    (inventory : Inventory) :
    (cycle r host names inventory).shown = (cycle r' host' names inventory).shown := by
  unfold cycle
  dsimp only
  split
  next => rfl
  next e _ => split <;> rfl
  next snapshots _ => split <;> rfl

/-- Two hosts are the same but for the time that a cycle takes. -/
structure Host.Alike (host host' : Host) : Prop where
  terminal : host.terminal = host'.terminal
  order : host.order = host'.order

theorem shown_runWith (r r' : Registry) (files : Files) {host host' : Host}
    (alike : host.Alike host') (config : Config) :
    (runWith r files host config).shown = (runWith r' files host' config).shown := by
  unfold runWith
  rw [alike.order]
  dsimp only
  split
  next => rfl
  next inventory _ => exact shown_cycle r r' host host' config.filters.deployments inventory

/-- Two environments agree on the level and on all that the configuration mentions, as far as a run
with the arguments takes them from there. -/
structure Agree (files : Files) (order : SetOrder) (arguments : List Text)
    (env env' : Environment) : Prop where
  level : ∀ path, CommandLine.parse arguments = .ok (.run path none) →
    env.Same env' CommandLine.levelVariable
  mentioned : ∀ path level document, CommandLine.parse arguments = .ok (.run path level) →
    Source.read files order "Configuration" path = .ok document →
    ∀ name, Placeholder.Mentions name document → env.Same env' name

theorem effectiveLevel_congr {env env' : Environment}
    (same : env.Same env' CommandLine.levelVariable) (config : Config) :
    effectiveLevel env none config = effectiveLevel env' none config := by
  have getD : ∀ env : Environment, effectiveLevel env none config =
      if (env CommandLine.levelVariable).getD "" = "" then config.logging.level
      else (env CommandLine.levelVariable).getD "" := by
    intro env
    unfold effectiveLevel
    cases env CommandLine.levelVariable <;> simp
  rw [getD, getD, same]

/-- The level that a run logs with is known in both environments, or in neither. -/
theorem known_congr {env env' : Environment} {arguments others : List Text} {path : Text}
    {level level' : Option Text}
    (parsed : CommandLine.parse arguments = .ok (.run path level))
    (parsed' : CommandLine.parse others = .ok (.run path level'))
    (given : level.isSome = level'.isSome)
    (same : level = none → env.Same env' CommandLine.levelVariable) (config : Config) :
    Text.upper (effectiveLevel env level config) ∈ Registry.levelNames ↔
      Text.upper (effectiveLevel env' level' config) ∈ Registry.levelNames := by
  have known : ∀ level ∈ CommandLine.levels, Text.upper level ∈ Registry.levelNames := by
    decide +kernel
  match level, level' with
  | none, none => rw [effectiveLevel_congr (same rfl)]
  | some name, some name' =>
    exact iff_of_true (known name (CommandLine.level_of_parse parsed name rfl))
      (known name' (CommandLine.level_of_parse parsed' name' rfl))

/-- A configuration that mentions one variable in a value and another one in a key. -/
def mentioningText : String :=
  "director:\n  inventory_path: $\x7bDIR\x7d/i\n$\x7bKEY\x7d: 1\n"

/-- The inventory lies in a directory that is named like a placeholder, and mentions a variable. -/
def mentioningFiles : Files :=
  [Files.named "c" mentioningText,
    Files.named "$\x7bKEY\x7d/i" "deployments:\n- name: $\x7bNAME\x7d\n"]

def directoryOnly : Environment := fun name =>
  if name = "DIR" then some "$\x7bKEY\x7d" else none

def allNames : Environment := fun name => if name = "DIR" then some "$\x7bKEY\x7d" else some name

theorem find_mentioning : mentioningFiles.find "c" = .file (Text.encode mentioningText) := by
  decide +kernel

def fortyColumns : Environment := fun name =>
  if name = CommandLine.columnsVariable then some "40" else none

end App

end Deployments
