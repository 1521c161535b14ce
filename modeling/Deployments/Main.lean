import Deployments.App
import Deployments.Log.Written

/-!
The program at the command line. It brings in the files and the variables that the run needs, and
writes what the run leaves.
-/

open Deployments

namespace Deployments.Main

/-- The file under a path. For a directory there stands an empty file in it. -/
def filesAt (path : Text) : IO Files := do
  match path.string? with
  | none => return []
  | some name =>
    try
      let bytes ← IO.FS.readBinFile name
      return [(Text.encode name, bytes.toList)]
    catch
      | .noFileOrDirectory .. => return []
      | _ => return [Files.named (name ++ "/file") ""]

/-- The variables of the environment that have one of the names. -/
def environmentOf (names : List String) : IO Environment := do
  let entries ← names.filterMapM fun name => do
    return (← IO.getEnv name).map fun value => (name, Text.ofString value)
  return fun name => entries.lookup name

def variableNames (files : Files) (order : SetOrder) (path : Text) : List String :=
  CommandLine.levelVariable :: CommandLine.columnsVariable ::
    (((Source.read files order "Configuration" path).toOption.map Placeholder.names).getD [])

def surroundings (order : SetOrder) (arguments : List Text) : IO (Files × Environment) := do
  match App.configPath? arguments with
  | none => return ([], ← environmentOf [CommandLine.columnsVariable])
  | some path =>
    let files ← filesAt path
    let env ← environmentOf (variableNames files order path)
    match App.inventoryPath? files env order path with
    | none => return (files, env)
    | some inventory => return (files ++ (← filesAt inventory), env)

def seconds (start stop : Nat) : String :=
  let hundredths := (stop - start) / 10
  let fraction := hundredths % 100
  toString (hundredths / 100) ++ "." ++ (if fraction < 10 then "0" else "") ++ toString fraction

/-- The text for a terminal, where surrogates are shown by their numbers. -/
def shown (t : Text) : String :=
  String.ofList (t.toList.flatMap fun
    | .char c => [c]
    | p => Text.numberedEscape p.code)

def run (arguments : List Text) : IO UInt32 := do
  let start ← IO.monoMsNow
  let order := SetOrder.asGiven
  let (files, env) ← surroundings order arguments
  let host : App.Host := ⟨80, order, seconds start (← IO.monoMsNow)⟩
  let outcome := App.run files env host arguments
  for line in outcome.lines ++ outcome.facetLines do
    IO.eprint line.text
  IO.eprint (shown (outcome.ending.report (CommandLine.columns env host.terminal)))
  IO.print outcome.output
  return UInt32.ofNat outcome.ending.exitCode

end Deployments.Main

def main (arguments : List String) : IO UInt32 :=
  Deployments.Main.run (arguments.map Text.ofString)
