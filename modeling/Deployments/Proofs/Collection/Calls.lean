import Deployments.Proofs.Collection.Reachable

/-!
What is done to each handle. At any time it is a first part of what is done to the handle when it
is fetched on its own, and all of it once the worker is done, whatever became of the collection.
-/

namespace Deployments.Collection

variable {ρ η : Facet → Type} {c : Collection ρ η} {s : State ρ η}

theorem deeds_initial_of_reaches (reached : c.Reaches c.start s) {i : Nat} {h : Handle ρ}
    {w : Worker ρ η} (handle : c.handles[i]? = some h) (place : s.workers[i]? = some w) :
    w.deeds <+: (h.run c.map).1 := by
  have old := (coherent_of_reaches reached).tracks.getElem? handle place
  exact old.1.deeds_initial

theorem deeds_eq_map_run {map : Mapping ρ η} {handles : List (Handle ρ)}
    {workers : List (Worker ρ η)}
    (tracks : List.Forall₂ (fun h w => w.Tracks map h ∧ w.Proper) handles workers)
    (drained : ∀ w ∈ workers, w.stage.isDone = true) :
    workers.map (·.deeds) = handles.map fun h => (h.run map).1 := by
  induction tracks with
  | nil => rfl
  | @cons h w handles workers head tail ih =>
    have first := head.1.deeds_of_done (drained w List.mem_cons_self)
    have rest := ih fun v member => drained v (List.mem_cons_of_mem w member)
    rw [List.map_cons, List.map_cons, first, rest]

theorem facetLines_of_deeds (map : Mapping ρ η) (handles : List (Handle ρ)) (report : Report η)
    (deeds : report.deeds = handles.map fun h => (h.run map).1) :
    facetLines handles report =
      handles.flatMap fun h => (h.reached map Facet.all).map (readingLine h.name) := by
  rw [facetLines, deeds]
  clear deeds
  induction handles with
  | nil => rfl
  | cons h rest ih =>
    rw [List.map_cons, List.zip_cons_cons, List.flatMap_cons, List.flatMap_cons, ih,
      ← h.lines_run map]

/-- Until a collection has drained, what was done to each handle is a first part of what is done to
it when it is fetched on its own. Once it has drained it is all of that: a line and a call for every
facet up to and including the first that fails, whatever the outcome and the order of the steps. -/
theorem deeds_of_reaches (c : Collection ρ η) (s : State ρ η) (reached : c.Reaches c.start s)
    (parent : Text) :
    (∀ (i : Nat) (h : Handle ρ) (w : Worker ρ η), c.handles[i]? = some h →
        s.workers[i]? = some w → w.deeds <+: (h.run c.map).1) ∧
      ((∀ w ∈ s.workers, w.stage.isDone = true) →
        (s.report parent).deeds = c.handles.map (fun h => (h.run c.map).1) ∧
        (s.report parent).calls = c.handles.map (·.reached c.map Facet.all) ∧
        facetLines c.handles (s.report parent) =
          c.handles.flatMap fun h => (h.reached c.map Facet.all).map (readingLine h.name)) := by
  refine ⟨fun i h w => deeds_initial_of_reaches reached, ?_⟩
  intro drained
  have deeds : (s.report parent).deeds = c.handles.map fun h => (h.run c.map).1 :=
    deeds_eq_map_run (coherent_of_reaches reached).tracks drained
  refine ⟨deeds, ?_, facetLines_of_deeds c.map c.handles _ deeds⟩
  rw [Report.calls, deeds, List.map_map]
  apply List.map_congr_left
  intro h _
  exact h.calls_run c.map

/-- After one deployment has ended a collection, all facets of the other one are still read. -/
theorem deeds_after_return :
    let left : Handle Facet.Record := .failing "left" .instances ⟨"OSError", [.text "gone"]⟩
    let c : Collection Facet.Record Facet.Entry := ⟨Facet.entryOf, [left, .quiet "right"], .free⟩
    let actions : List Action := List.replicate 9 (.worker 0) ++ [.deliver 0, .wake, .finish] ++
      List.replicate 15 (.worker 1)
    ∃ s, c.runFrom? c.start actions = some s ∧ (∀ w ∈ s.workers, w.stage.isDone = true) ∧
      (s.report "").calls = [[.errands, .instances], Facet.all] := by
  intro left c actions
  have last : (c.runFrom? c.start actions).map (·.workers.all (·.stage.isDone)) = some true := by
    decide
  obtain ⟨s, run, done⟩ := Option.map_eq_some_iff.mp last
  have drained : ∀ w ∈ s.workers, w.stage.isDone = true := List.all_eq_true.mp done
  obtain ⟨-, calls, -⟩ := (deeds_of_reaches c s ⟨actions, run⟩ "").2 drained
  refine ⟨s, run, drained, calls.trans ?_⟩
  rfl

end Deployments.Collection
