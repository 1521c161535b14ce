import Mathlib.Data.Finite.Prod
import Mathlib.Data.Fintype.Card
import Mathlib.Order.WellFounded
import Deployments.Proofs.Collection.Outcome
import Deployments.Proofs.Collection.Termination
import Deployments.Proofs.Collection.Waits

/-!
Collections whose calls wait for one another. Every worker has a place in the pool of its own, so a
worker that cannot go on waits for a call that was not started, and its worker cannot go on either.
Without a cycle among the waits that is impossible: the collection goes on until it has returned
all snapshots.
-/

namespace Deployments

instance : Fintype Facet := ⟨⟨Facet.all, by decide⟩, Facet.mem_all⟩

namespace Collection

variable {ρ η : Facet → Type} {c : Collection ρ η} {s : State ρ η}

theorem isOpen_of_free (free : c.gates = .free) (s : State ρ η) (i : Nat) (facet : Facet) :
    c.isOpen s i facet = true := by
  simp [isOpen, free, Gates.free]

theorem move?_of_isFinal (final : c.IsFinal s) {i : Nat} {h : Handle ρ} {w : Worker ρ η}
    (handle : c.handles[i]? = some h) (place : s.workers[i]? = some w) :
    w.move? c.map h (c.hasPlace s i) (c.isOpen s i) s.slot = none := by
  have stuck := final (.worker i)
  simp only [step?, handle, place] at stuck
  exact Option.map_eq_none_iff.mp stuck

/-- The pool is as large as the number of workers, so the first that waits gets a place. -/
theorem hasPlace_of_first (reached : c.Reaches c.start s) {i : Nat} {w : Worker ρ η}
    (place : s.workers[i]? = some w) (queued : w.stage = .queued)
    (first : ∀ j < i, ∀ v, s.workers[j]? = some v → v.stage.isQueued = false) :
    c.hasPlace s i = true := by
  have room : s.active < c.pool := by
    rw [State.active, pool, ← length_workers reached]
    refine Nat.lt_of_le_of_ne List.countP_le_length ?_
    intro full
    have active := List.countP_eq_length.mp full w (List.mem_of_getElem? place)
    rw [queued] at active
    cases active
  have before : (s.workers.take i).all (!·.stage.isQueued) = true := by
    rw [List.all_eq_true]
    intro v member
    obtain ⟨j, found⟩ := List.mem_iff_getElem?.mp member
    rw [List.getElem?_take] at found
    split at found
    next earlier => simp [first j earlier v found]
    next => cases found
  simp [hasPlace, room, before]

theorem exists_hasPlace (reached : c.Reaches c.start s) {i : Nat} {w : Worker ρ η}
    (place : s.workers[i]? = some w) (queued : w.stage = .queued) :
    ∃ j v, s.workers[j]? = some v ∧ v.stage = .queued ∧ c.hasPlace s j = true := by
  induction i using Nat.strongRecOn generalizing w with
  | ind i ih =>
    by_cases first : ∀ j < i, ∀ v, s.workers[j]? = some v → v.stage.isQueued = false
    · exact ⟨i, w, place, queued, hasPlace_of_first reached place queued first⟩
    · push Not at first
      obtain ⟨j, earlier, v, found, waits⟩ := first
      cases stage : v.stage with
      | queued => exact ih j earlier found stage
      | _ => simp [stage, Stage.isQueued] at waits

theorem not_queued_of_isFinal (reached : c.Reaches c.start s) (final : c.IsFinal s) {i : Nat}
    {w : Worker ρ η} (place : s.workers[i]? = some w) : w.stage ≠ .queued := by
  intro queued
  obtain ⟨j, v, place, queued, hasPlace⟩ := exists_hasPlace reached place queued
  obtain ⟨h, handle, _⟩ := (coherent_of_reaches reached).tracks.exists_left place
  have stuck := move?_of_isFinal final handle place
  simp [Worker.move?, queued, hasPlace] at stuck

/-- A worker waits for the end of a call that may not end yet. -/
def Stuck (c : Collection ρ η) (s : State ρ η) (call : Call) : Prop :=
  ∃ w todo, s.workers[call.1]? = some w ∧ w.stage = .calling call.2 todo ∧
    c.isOpen s call.1 call.2 = false

theorem stuck_of_isFinal (reached : c.Reaches c.start s) (final : c.IsFinal s) {i : Nat}
    {w : Worker ρ η} (place : s.workers[i]? = some w) (working : w.stage.isDone = false) :
    ∃ facet, c.Stuck s (i, facet) := by
  obtain ⟨h, handle, _⟩ := (coherent_of_reaches reached).tracks.exists_left place
  rcases Worker.stage_of_stuck (move?_of_isFinal final handle place) with
    done | ⟨queued, _⟩ | ⟨facet, todo, stage, closed⟩
  · rw [working] at done
    cases done
  · exact (not_queued_of_isFinal reached final place queued).elim
  · exact ⟨facet, w, todo, place, stage, closed⟩

theorem done_of_isFinal (reached : c.Reaches c.start s) (final : c.IsFinal s)
    (moving : ∀ call, ¬ c.Stuck s call) : ∀ w ∈ s.workers, w.stage.isDone = true := by
  intro w member
  by_contra working
  obtain ⟨i, place⟩ := List.mem_iff_getElem?.mp member
  obtain ⟨facet, stuck⟩ := stuck_of_isFinal reached final place (Bool.not_eq_true _ ▸ working)
  exact moving (i, facet) stuck

/-- A worker of a handle that can be fetched starts the calls that it has not started later. -/
theorem sublist_all_of_not_started {map : Mapping ρ η} {h : Handle ρ} {w : Worker ρ η}
    (tracks : w.Tracks map h) {snapshot : Snapshot η} (fetched : h.fetch map = .ok snapshot)
    {facet later : Facet} (started : w.hasStarted facet = true)
    (unstarted : w.hasStarted later = false) : [facet, later].Sublist Facet.all := by
  have all : Deed.calls w.deeds ++ Deed.calls (w.stage.ahead map h w.read).1 = Facet.all := by
    rw [← Deed.calls_append, ← h.calls_readAll_of_ok map fetched]
    exact congrArg (fun r => Deed.calls r.1) tracks
  have done : facet ∈ Deed.calls w.deeds := by
    rw [Deed.mem_calls]
    exact List.contains_iff_mem.mp started
  have ahead : later ∈ Deed.calls (w.stage.ahead map h w.read).1 := by
    have member := Facet.mem_all later
    rw [← all, List.mem_append] at member
    refine member.resolve_left ?_
    rw [Deed.mem_calls, ← List.contains_iff_mem]
    exact Bool.not_eq_true _ ▸ unstarted
  rw [← all]
  exact (List.singleton_sublist.mpr done).append (List.singleton_sublist.mpr ahead)

theorem exists_unstarted {i : Nat} {facet : Facet} (released : c.gates.held i facet = false)
    (closed : c.isOpen s i facet = false) :
    ∃ call ∈ c.gates.awaited i facet, s.hasStarted call.1 call.2 = false := by
  have missing : ¬ (c.gates.awaited i facet).all fun call => s.hasStarted call.1 call.2 := by
    intro all
    simp [isOpen, released, all] at closed
  rw [List.all_eq_true] at missing
  push Not at missing
  obtain ⟨call, awaited, unstarted⟩ := missing
  exact ⟨call, awaited, Bool.not_eq_true _ ▸ unstarted⟩

theorem not_done_of_not_started {map : Mapping ρ η} {h : Handle ρ} {w : Worker ρ η}
    (tracks : w.Tracks map h) {snapshot : Snapshot η} (fetched : h.fetch map = .ok snapshot)
    {facet : Facet} (unstarted : w.hasStarted facet = false) : w.stage.isDone = false := by
  by_contra done
  have deeds := tracks.deeds_of_done (Bool.not_eq_false _ ▸ done)
  have called : facet ∈ Deed.calls w.deeds := by
    rw [deeds, Handle.run, h.calls_readAll_of_ok map fetched]
    exact Facet.mem_all facet
  rw [Deed.mem_calls, ← List.contains_iff_mem] at called
  exact absurd (called.symm.trans unstarted) (by decide)

section Orderly

variable (reached : c.Reaches c.start s)
  (fetched : ∀ h ∈ c.handles, ∃ snapshot, h.fetch c.map = .ok snapshot)
  (orderly : c.gates.Orderly c.handles.length)
include reached fetched orderly

/-- Behind a call that may not end there is another one, which has to end before. -/
theorem Stuck.earlier (final : c.IsFinal s) {call : Call} (stuck : c.Stuck s call) :
    ∃ other, c.Stuck s other ∧
      Relation.TransGen (c.gates.Precedes c.handles.length) (.finish other) (.finish call) := by
  obtain ⟨i, facet⟩ := call
  obtain ⟨w, todo, place, stage, closed⟩ := stuck
  have tracks := (coherent_of_reaches reached).tracks
  obtain ⟨h, handle, _⟩ := tracks.exists_left place
  have inside : i < c.handles.length := (List.getElem?_eq_some_iff.mp handle).1
  obtain ⟨⟨j, later⟩, awaited, unstarted⟩ := exists_unstarted (orderly.released i facet) closed
  -- the worker of the call that was not started is not done, so it waits within an earlier one
  obtain ⟨v, place⟩ := exists_worker reached (orderly.inside i facet (j, later) inside awaited)
  obtain ⟨g, handle, tracksOther, proper⟩ := tracks.exists_left place
  obtain ⟨snapshot, succeeded⟩ := fetched g (List.mem_of_getElem? handle)
  have unstarted : v.hasStarted later = false := by
    simpa [State.hasStarted, place] using unstarted
  have working := not_done_of_not_started tracksOther succeeded unstarted
  obtain ⟨other, stuck⟩ := stuck_of_isFinal reached final place working
  obtain ⟨u, rest, same, calling, _⟩ := id stuck
  cases place.symm.trans same
  have order := sublist_all_of_not_started tracksOther succeeded (proper.called other rest calling)
    unstarted
  refine ⟨(j, other), stuck, ?_⟩
  exact .tail (.single (.next j order)) (.awaited inside awaited)

theorem not_stuck_of_isFinal (final : c.IsFinal s) (call : Call) : ¬ c.Stuck s call := by
  intro stuck
  let before (a b : Fin c.handles.length × Facet) : Prop :=
    Relation.TransGen (c.gates.Precedes c.handles.length) (.finish (a.1.val, a.2))
      (.finish (b.1.val, b.2))
  have trans : IsTrans _ before := ⟨fun _ _ _ => Relation.TransGen.trans⟩
  have irrefl : Std.Irrefl before := ⟨fun _ => orderly.acyclic _⟩
  have inside : ∀ other, c.Stuck s other → other.1 < c.handles.length := by
    intro other ⟨w, _, place, _⟩
    rw [← length_workers reached]
    exact (List.getElem?_eq_some_iff.mp place).1
  obtain ⟨first, member, least⟩ := (Finite.wellFounded_of_trans_of_irrefl before).has_min
    {a | c.Stuck s (a.1.val, a.2)} ⟨(⟨call.1, inside call stuck⟩, call.2), stuck⟩
  obtain ⟨other, stuck, earlier⟩ := Stuck.earlier reached fetched orderly final member
  exact least (⟨other.1, inside other stuck⟩, other.2) stuck earlier

end Orderly

/-- A collection whose workers are done goes on until the loop has returned. -/
theorem returned_of_isFinal (final : c.IsFinal s) (done : ∀ w ∈ s.workers, w.stage.isDone = true) :
    ∃ outcome, s.outcome? = some outcome := by
  have told : Told s.workers := by
    right
    intro w member
    obtain ⟨i, place⟩ := List.mem_iff_getElem?.mp member
    have stuck := final (.deliver i)
    simp only [step?, place, Option.bind_some, Option.map_eq_none_iff] at stuck
    have finished := done w member
    cases stage : w.stage with
    | settled result => simp [Worker.deliver?, stage] at stuck
    | delivered result => rfl
    | _ =>
      rw [stage] at finished
      cases finished
  cases waiter : s.waiter with
  | waiting =>
    have stuck := final .wake
    have awake := Bool.or_eq_true_iff.mpr ((told_iff s).mp told)
    simp [step?, waiter, awake] at stuck
  | awake =>
    have stuck := final .finish
    simp [step?, waiter] at stuck
  | returned outcome => exact ⟨outcome, by rw [State.outcome?, waiter]⟩

/-- Where no call waits, a collection goes on until all its workers are done and the loop has
returned, whatever the workers bring. -/
theorem done_and_returned_of_free (free : c.gates = .free) (reached : c.Reaches c.start s)
    (final : c.IsFinal s) :
    (∀ w ∈ s.workers, w.stage.isDone = true) ∧ ∃ outcome, s.outcome? = some outcome := by
  have moving : ∀ call, ¬ c.Stuck s call := by
    rintro call ⟨w, todo, _, _, closed⟩
    rw [isOpen_of_free free] at closed
    cases closed
  have done := done_of_isFinal reached final moving
  exact ⟨done, returned_of_isFinal final done⟩

theorem snapshots_of_outcome (reached : c.Reaches c.start s)
    (fetched : ∀ h ∈ c.handles, ∃ snapshot, h.fetch c.map = .ok snapshot)
    {outcome : Except Failure (List (Snapshot η))} (ended : s.outcome? = some outcome) :
    ∃ snapshots, outcome = .ok snapshots ∧ c.handles.map (·.fetch c.map) = snapshots.map .ok := by
  have noFailure : ∀ h ∈ c.handles, ∀ e, h.fetch c.map ≠ .error e := by
    intro h member e failed
    obtain ⟨snapshot, succeeded⟩ := fetched h member
    rw [succeeded] at failed
    cases failed
  cases judged_of_reaches reached outcome ended with
  | complete all => exact ⟨_, rfl, all⟩
  | first stored =>
    obtain ⟨h, member, failed⟩ := (coherent_of_reaches reached).held _ stored
    exact (noFailure h member _ failed).elim
  | unhandled member failed => exact (noFailure _ member _ failed).elim
  | early _ handle failed =>
    exact (noFailure _ (List.mem_of_getElem? handle) _ failed).elim

/-- A collection goes on until it has returned all snapshots: while a worker is not done there is a
step, no run is longer than the budget, and where a run ends all snapshots have been returned. -/
structure Completes (c : Collection ρ η) : Prop where
  progress : ∀ s, c.Reaches c.start s → (∃ w ∈ s.workers, w.stage.isDone = false) →
    ∃ action t, c.step? s action = some t
  bounded : ∀ actions s, c.runFrom? c.start actions = some s → actions.length ≤ c.budget
  returned : ∀ s, c.Reaches c.start s → c.IsFinal s → ∃ snapshots,
    s.outcome? = some (.ok snapshots) ∧ c.handles.map (·.fetch c.map) = snapshots.map .ok
  collected : ∀ parent, ∃ snapshots, (c.collect parent).outcome = some (.ok snapshots) ∧
    c.handles.map (·.fetch c.map) = snapshots.map .ok

theorem completes_of_orderly (c : Collection ρ η)
    (fetched : ∀ h ∈ c.handles, ∃ snapshot, h.fetch c.map = .ok snapshot)
    (orderly : c.gates.Orderly c.handles.length) : c.Completes := by
  have returned : ∀ s, c.Reaches c.start s → c.IsFinal s → ∃ snapshots,
      s.outcome? = some (.ok snapshots) ∧ c.handles.map (·.fetch c.map) = snapshots.map .ok := by
    intro s reached final
    have moving := not_stuck_of_isFinal reached fetched orderly final
    have done := done_of_isFinal reached final moving
    obtain ⟨outcome, ended⟩ := returned_of_isFinal final done
    obtain ⟨snapshots, rfl, all⟩ := snapshots_of_outcome reached fetched ended
    exact ⟨snapshots, ended, all⟩
  constructor
  case progress =>
    rintro s reached ⟨w, member, working⟩
    by_contra stuck
    have final : c.IsFinal s := by
      intro action
      cases taken : c.step? s action with
      | none => rfl
      | some t => exact (stuck ⟨action, t, taken⟩).elim
    have moving := not_stuck_of_isFinal reached fetched orderly final
    have done := done_of_isFinal reached final moving w member
    rw [working] at done
    cases done
  case bounded => exact fun _ _ run => length_le_budget run
  case returned => exact returned
  case collected =>
    intro parent
    obtain ⟨s, reached, final, same⟩ := collect_eq_report parent c
    rw [same]
    exact returned s reached final

/-- A collection of deployments that can be read completes if no call has to come before itself,
even if calls wait for the starts of each other as they do behind a barrier. -/
theorem completes_of_readable (map : Mapping ρ η) (handles : List (Handle ρ))
    (readable : ∀ h ∈ handles, ∀ facet, h.isReadable map facet = true) :
    (∀ gates : Gates, gates.CallsOrderly handles.length → Completes ⟨map, handles, gates⟩) ∧
      (∀ gates : Gates, gates.Orderly handles.length → Completes ⟨map, handles, gates⟩) ∧
      Completes ⟨map, handles, .barrier handles.length⟩ := by
  have fetched : ∀ h ∈ handles, ∃ snapshot, h.fetch map = .ok snapshot :=
    fun h member => h.fetch_of_readable map (readable h member)
  have completes : ∀ gates : Gates, gates.Orderly handles.length →
      Completes ⟨map, handles, gates⟩ :=
    fun gates orderly => completes_of_orderly ⟨map, handles, gates⟩ fetched orderly
  refine ⟨?_, completes, ?_⟩
  · intro gates calls
    exact completes gates calls.orderly
  · exact completes _ (Gates.orderly_barrier handles.length)

theorem completes_three_quiet :
    let handles : List (Handle Facet.Record) := [.quiet "left", .quiet "middle", .quiet "right"]
    (∀ h ∈ handles, ∀ facet, h.isReadable Facet.entryOf facet = true) ∧
      Completes ⟨Facet.entryOf, handles, .barrier 3⟩ := by
  intro handles
  have readable : ∀ h ∈ handles, ∀ facet, h.isReadable Facet.entryOf facet = true := by
    decide
  exact ⟨readable, (completes_of_readable Facet.entryOf handles readable).2.2⟩

end Collection

end Deployments
