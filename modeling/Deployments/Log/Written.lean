import Deployments.Json
import Deployments.Log

/-!
Log lines as they are written: each is an object on a line of its own.
-/

namespace Deployments

def LogLine.members (line : LogLine) : List (Text × Text) :=
  [("name", line.logger), ("levelname", line.level.name), ("message", line.message)]

def LogLine.text (line : LogLine) : String :=
  let written := line.members.map fun m =>
    Json.quoted m.1 ++ ':' :: ' ' :: Json.quoted m.2
  String.ofList ('\x7b' :: [',', ' '].intercalate written ++ ['\x7d', '\n'])

end Deployments
