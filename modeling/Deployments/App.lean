import Deployments.CommandLine.Help
import Deployments.Fetcher
import Deployments.Log.Registry
import Deployments.Source

/-!
The program: it loads a configuration and an inventory, fetches the selected deployments and prints
their snapshots.
-/

namespace Deployments.App

def logger : Text := "bosh_topology"

def facetLogger : Text := "bosh_topology.collectors.facets"

/-- The log level where none is given. -/
def defaultLevel : Text := "INFO"

/-- Why the program could not start. -/
inductive StartError where
  | load (e : LoadError)
  | setUp (e : SetupError)
  deriving Repr, Inhabited

def StartError.message : StartError → Text
  | load e => e.message
  | setUp e => e.message

inductive Ending where
  | help
  | misused (e : CommandLine.UsageError)
  | unstarted (e : StartError)
  /-- Deployments could not be listed or read. -/
  | failed (e : Failure)
  /-- A failure that nothing handles ended the program. -/
  | escaped (e : Failure)
  | finished
  deriving Repr, Inhabited

structure Outcome where
  ending : Ending
  output : String
  /-- What was logged, but for the announcements of facets. -/
  lines : List LogLine
  facetLines : List LogLine
  deriving Repr, Inhabited

def Ending.exitCode : Ending → Nat
  | help | finished => 0
  | misused _ => 2
  | unstarted _ | failed _ | escaped _ => 1

/-- What an ending says for itself, in so many columns. -/
def Ending.report (columns : Nat) : Ending → Text
  | misused e => CommandLine.misuseText columns e
  | unstarted e => "ERROR:root:Application startup failed: " ++ e.message ++ "\n"
  | escaped e => e.message ++ "\n"
  | help | failed _ | finished => ""

/-- What a run finds besides files and an environment. -/
structure Host where
  /-- The columns of the terminal; without one there are 80. -/
  terminal : Nat
  /-- The order in which sets give their members. -/
  order : SetOrder
  /-- The time that the collection takes, as it stands in the log. -/
  elapsed : String

/-- The first text that is given and not empty, or else the last resort. -/
def firstGiven (choices : List (Option Text)) (resort : Text) : Text :=
  ((choices.filterMap id).find? (· != ("" : Text))).getD resort

/-- The lines that are written of messages. They depend on the set-up alone, as no logger is set up
but the topmost one of the program. -/
def written (r : Registry) (lines : List LogLine) : List LogLine :=
  lines.flatMap fun message => (r.log message).2.lines

def line (level : Level) (message : Text) : LogLine := ⟨logger, level, message⟩

/-- The collection of an inventory and the printing of its snapshots, with loggers set up. -/
def cycle (r : Registry) (host : Host) (names : List Text) (inventory : Inventory) :
    Outcome :=
  let fetched := Fetcher.fetch logger Facet.entryOf (fun _ => .free) (names.map .text)
    inventory.director
  let before := line .info "Starting collection cycle" :: fetched.lines
  let facetLines := written r (fetched.facetLines.map fun text => ⟨facetLogger, .debug, text⟩)
  let ended (ending : Ending) (output : String) (lines : List LogLine) : Outcome :=
    ⟨ending, output, written r (before ++ lines), facetLines⟩
  match fetched.outcome with
  | none => ended (.escaped .unfinished) "" []
  | some (.error e) =>
    if e.isCollectionError then
      ended (.failed e) "" [line .error ("Collection cycle failed: " ++ e.message)]
    else ended (.escaped e) "" []
  | some (.ok snapshots) =>
    let complete := line .info ("Collection cycle complete: " ++
      Collection.counted snapshots.length ++ " in " ++ host.elapsed ++ "s")
    match Snapshot.render snapshots with
    | .ok text => ended .finished (text ++ "\n") [complete]
    | .error f => ended (.escaped (.fault f)) "" [complete]

def runWith (r : Registry) (files : Files) (host : Host) (config : Config) : Outcome :=
  let path := config.director.inventoryPath
  let loading := written r [line .info ("Loading director inventory from " ++ path)]
  match Inventory.load files host.order path with
  | .error e => ⟨.unstarted (.load e), "", loading, []⟩
  | .ok inventory =>
    let outcome := cycle r host config.filters.deployments inventory
    { outcome with lines := loading ++ outcome.lines }

def configPath? (arguments : List Text) : Option Text :=
  match CommandLine.parse arguments with
  | .ok (.run path _) => some path
  | _ => none

def inventoryPath? (files : Files) (env : Environment) (order : SetOrder) (path : Text) :
    Option Text :=
  (Config.load files env order path).toOption.map fun config => config.director.inventoryPath

def run (files : Files) (env : Environment) (host : Host) (arguments : List Text) : Outcome :=
  match CommandLine.parse arguments with
  | .error e => ⟨.misused e, "", [], []⟩
  | .ok .help => ⟨.help, CommandLine.helpText (CommandLine.columns env host.terminal), [], []⟩
  | .ok (.run path level) =>
    match Config.load files env host.order path with
    | .error e => ⟨.unstarted (.load e), "", [], []⟩
    | .ok config =>
      let given := firstGiven [level.orElse fun _ => env CommandLine.levelVariable]
        config.logging.level
      match Registry.initial.setUp logger (.text given) with
      | (_, .error e) => ⟨.unstarted (.setUp e), "", [], []⟩
      | (r, .ok _) => runWith r files host config

end Deployments.App
