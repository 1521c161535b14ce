import Deployments.Collection.Cycles
import Deployments.Selection

/-!
The fetching of snapshots: deployments are selected and then collected.
-/

namespace Deployments

structure Fetched (ρ η : Facet → Type) where
  /-- The outcome; nothing if a call waits for ever. -/
  outcome : Option (Except Failure (List (Snapshot η)))
  handles : List (Handle ρ)
  directorCalls : List DirectorCall
  calls : List (List Facet)
  lines : List LogLine
  facetLines : List Text

namespace Fetcher

variable {ρ η : Facet → Type}

/-- The cycle that a fetcher begins. -/
def plan (parent : Text) (map : Mapping ρ η) (gates : List (Handle ρ) → Gates)
    (names : List Value) (director : Director ρ) : Plan ρ η :=
  (Selection.select parent names director).outcome.map fun handles => ⟨map, handles, gates handles⟩

/-- The snapshots of the deployments of given names, or of all if no name is given. What calls
wait for may depend on the handles that are selected. -/
def fetch (parent : Text) (map : Mapping ρ η) (gates : List (Handle ρ) → Gates)
    (names : List Value) (director : Director ρ) : Fetched ρ η :=
  let selected := Selection.select parent names director
  match selected.outcome with
  | .error e => ⟨some (.error e), [], selected.calls, [], selected.lines, []⟩
  | .ok handles =>
    let report := Collection.collect parent ⟨map, handles, gates handles⟩
    ⟨report.outcome, handles, selected.calls, report.calls, selected.lines ++ report.lines,
      Collection.facetLines handles report⟩

end Fetcher

end Deployments
