import Deployments.Collection.Run
import Deployments.Proofs.Handle

/-!
A worker on its own. Whatever it has still to do is fixed by its handle: its forecast, all it will
have done and the result it will hand over, is that of the handle read alone, and no step changes
it. Every step also brings the worker nearer to its end.
-/

namespace Deployments.Collection

variable {ρ η : Facet → Type}

namespace Stage

def offer? : Stage ρ η → Option Failure
  | offering e => some e
  | _ => none

/-- The error of a worker that has got past the slot. -/
def failure? : Stage ρ η → Option Failure
  | announcing e | settling (.error e) | settled (.error e) | delivered (.error e) => some e
  | _ => none

/-- No worker takes more steps from this stage on, the delivery of its end included. -/
def rank : Stage ρ η → Nat
  | queued => 17
  | ready todo => 4 + 3 * todo.length
  | calling _ todo => 6 + 3 * todo.length
  | mapping _ _ todo => 5 + 3 * todo.length
  | offering _ => 4
  | announcing _ => 3
  | settling _ => 2
  | settled _ => 1
  | delivered _ => 0

/-- What is still to be done after a snapshot was read so far, and what comes of it. -/
def ahead (map : Mapping ρ η) (h : Handle ρ) (read : Snapshot η) :
    Stage ρ η → List Deed × Except Failure (Snapshot η)
  | queued => h.readAll map Facet.all read
  | ready todo => h.readAll map todo read
  | calling facet todo => h.resume map facet (h.read map facet) todo read
  | mapping facet records todo =>
    h.resume map facet ((entriesOf (map facet) records).mapError .fault) todo read
  | offering e | announcing e => ([], .error e)
  | settling result | settled result | delivered result => ([], result)

theorem ahead_ofFailure (map : Mapping ρ η) (h : Handle ρ) (read : Snapshot η) (e : Failure) :
    (ofFailure e).ahead map h read = ([], .error e) := by
  unfold ofFailure
  split <;> rfl

theorem rank_ofFailure (e : Failure) : (ofFailure e : Stage ρ η).rank ≤ 4 := by
  unfold ofFailure
  split <;> simp [rank]

theorem failure?_ofFailure {e f : Failure} (failed : (ofFailure e : Stage ρ η).failure? = some f) :
    f.isOrdinary = false := by
  unfold ofFailure at failed
  split at failed
  · cases failed
  next unhandled =>
    cases failed
    exact Bool.not_eq_true _ ▸ unhandled

end Stage

namespace Worker

variable {map : Mapping ρ η} {h : Handle ρ} {hasPlace : Bool} {isOpen : Facet → Bool}
  {slot : ErrorSlot Failure} {w w' : Worker ρ η} {m : Move ρ η}

inductive Moves (map : Mapping ρ η) (h : Handle ρ) (hasPlace : Bool) (isOpen : Facet → Bool)
    (slot : ErrorSlot Failure) (w : Worker ρ η) : Move ρ η → Prop where
  | begin (stage : w.stage = .queued) (place : hasPlace = true) :
    Moves map h hasPlace isOpen slot w (w.moveTo slot (.ready Facet.all))
  | complete (stage : w.stage = .ready []) :
    Moves map h hasPlace isOpen slot w (w.moveTo slot (.settling (.ok w.read)))
  | call {facet : Facet} {todo : List Facet} (stage : w.stage = .ready (facet :: todo)) :
    Moves map h hasPlace isOpen slot w
      (Worker.moveTo { w with deeds := w.deeds ++ [.line facet, .call facet] } slot
        (.calling facet todo))
  | raised {facet : Facet} {todo : List Facet} {e : Raised} (stage : w.stage = .calling facet todo)
    (ended : isOpen facet = true) (answer : h.answer facet = .error e) :
    Moves map h hasPlace isOpen slot w (w.moveTo slot (.ofFailure (h.failureOf facet e)))
  | answered {facet : Facet} {todo : List Facet} {records : List (ρ facet)}
    (stage : w.stage = .calling facet todo) (ended : isOpen facet = true)
    (answer : h.answer facet = .ok records) :
    Moves map h hasPlace isOpen slot w (w.moveTo slot (.mapping facet records todo))
  | mapped {facet : Facet} {todo : List Facet} {records : List (ρ facet)}
    {entries : List (η facet)} (stage : w.stage = .mapping facet records todo)
    (mapped : entriesOf (map facet) records = .ok entries) :
    Moves map h hasPlace isOpen slot w
      (Worker.moveTo { w with read := w.read.set facet entries } slot (.ready todo))
  | faulty {facet : Facet} {todo : List Facet} {records : List (ρ facet)} {f : Fault}
    (stage : w.stage = .mapping facet records todo)
    (faulty : entriesOf (map facet) records = .error f) :
    Moves map h hasPlace isOpen slot w (w.moveTo slot (.ofFailure (.fault f)))
  | offer {e : Failure} (stage : w.stage = .offering e) :
    Moves map h hasPlace isOpen slot w
      (w.moveTo (slot.offer e).2 (if (slot.offer e).1 then .announcing e else .settling (.error e)))
  | announce {e : Failure} (stage : w.stage = .announcing e) :
    Moves map h hasPlace isOpen slot w
      { w.moveTo slot (.settling (.error e)) with
        lines := [(.debug, "Stopping collection: " ++ e.message)] }
  | settle {result : Except Failure (Snapshot η)} (stage : w.stage = .settling result) :
    Moves map h hasPlace isOpen slot w (w.moveTo slot (.settled result))

theorem moves_of_move? (step : w.move? map h hasPlace isOpen slot = some m) :
    Moves map h hasPlace isOpen slot w m := by
  unfold move? at step
  split at step
  next stage =>
    split at step
    next place => cases step; exact .begin stage place
    next => cases step
  next stage => cases step; exact .complete stage
  next stage => cases step; exact .call stage
  next stage =>
    split at step
    next ended =>
      split at step
      next answer => cases step; exact .raised stage ended answer
      next answer => cases step; exact .answered stage ended answer
    next => cases step
  next stage =>
    split at step
    next mapped => cases step; exact .mapped stage mapped
    next faulty => cases step; exact .faulty stage faulty
  next stage => cases step; exact .offer stage
  next stage => cases step; exact .announce stage
  next stage => cases step; exact .settle stage
  next => cases step
  next => cases step

/-- Only a worker that waits for a place, waits for the end of its call or is done takes no step. -/
theorem stage_of_stuck (stuck : w.move? map h hasPlace isOpen slot = none) :
    w.stage.isDone = true ∨ (w.stage = .queued ∧ hasPlace = false) ∨
      ∃ facet todo, w.stage = .calling facet todo ∧ isOpen facet = false := by
  unfold move? at stuck
  split at stuck
  next stage =>
    split at stuck
    next => cases stuck
    next noPlace => exact .inr (.inl ⟨stage, Bool.not_eq_true _ ▸ noPlace⟩)
  next => cases stuck
  next => cases stuck
  next facet todo stage =>
    split at stuck
    next => split at stuck <;> cases stuck
    next closed => exact .inr (.inr ⟨facet, todo, stage, Bool.not_eq_true _ ▸ closed⟩)
  next => split at stuck <;> cases stuck
  next => cases stuck
  next => cases stuck
  next => cases stuck
  next stage => exact .inl (by rw [stage]; rfl)
  next stage => exact .inl (by rw [stage]; rfl)

/-- What a worker will have done in the end, and what it will hand over. -/
def forecast (map : Mapping ρ η) (h : Handle ρ) (w : Worker ρ η) :
    List Deed × Except Failure (Snapshot η) :=
  let ahead := w.stage.ahead map h w.read
  (w.deeds ++ ahead.1, ahead.2)

/-- The forecast is that of the handle read alone. -/
def Tracks (map : Mapping ρ η) (h : Handle ρ) (w : Worker ρ η) : Prop :=
  w.forecast map h = h.run map

theorem tracks_start (map : Mapping ρ η) (h : Handle ρ) : (Worker.start h).Tracks map h := rfl

/-- No step changes what is forecast. -/
theorem forecast_move (step : Moves map h hasPlace isOpen slot w m) :
    m.worker.forecast map h = w.forecast map h := by
  unfold forecast
  cases step with
  | begin stage | complete stage | announce stage | settle stage =>
    simp only [Worker.moveTo, stage, Stage.ahead, Handle.readAll]
  | call stage =>
    simp only [Worker.moveTo, stage, Stage.ahead, Handle.readAll_cons, List.append_assoc]
  | @raised facet todo e stage _ answer =>
    have outcome : h.read map facet = .error (h.failureOf facet e) := by
      simp only [Handle.read, answer]
    simp only [Worker.moveTo, Stage.ahead_ofFailure]
    simp only [stage, Stage.ahead, outcome, Handle.resume]
  | @answered facet todo records stage _ answer =>
    have outcome : h.read map facet = (entriesOf (map facet) records).mapError .fault := by
      simp only [Handle.read, answer]
      cases entriesOf (map facet) records <;> rfl
    simp only [Worker.moveTo, stage, Stage.ahead, outcome]
  | mapped stage mapped =>
    simp only [Worker.moveTo, stage, Stage.ahead, mapped]
    rfl
  | faulty stage faulty =>
    simp only [Worker.moveTo, Stage.ahead_ofFailure]
    simp only [stage, Stage.ahead, faulty]
    rfl
  | @offer e stage =>
    simp only [Worker.moveTo, stage]
    split <;> rfl

theorem rank_move (step : Moves map h hasPlace isOpen slot w m) :
    m.worker.stage.rank < w.stage.rank := by
  cases step with
  | begin stage | complete stage | answered stage | mapped stage | announce stage | settle stage =>
    simp [Worker.moveTo, stage, Stage.rank, Facet.all]
  | call stage =>
    simp only [Worker.moveTo, stage, Stage.rank, List.length_cons]
    omega
  | @raised facet todo e stage =>
    have bound := Stage.rank_ofFailure (ρ := ρ) (η := η) (h.failureOf facet e)
    have total : w.stage.rank = 6 + 3 * todo.length := by rw [stage, Stage.rank]
    simp only [Worker.moveTo]
    omega
  | @faulty facet todo records f stage =>
    have bound := Stage.rank_ofFailure (ρ := ρ) (η := η) (.fault f)
    have total : w.stage.rank = 5 + 3 * todo.length := by rw [stage, Stage.rank]
    simp only [Worker.moveTo]
    omega
  | offer stage =>
    simp only [Worker.moveTo, stage]
    split <;> simp [Stage.rank]

theorem held_move (step : Moves map h hasPlace isOpen slot w m) :
    m.slot.held = slot.held.or w.stage.offer? := by
  cases step with
  | begin stage | complete stage | call stage | raised stage | answered stage | mapped stage
  | faulty stage | announce stage | settle stage =>
    simp only [Worker.moveTo, stage, Stage.offer?, Option.or_none]
  | offer stage =>
    simp only [Worker.moveTo, stage, Stage.offer?]
    exact slot.held_offer _

/-- An error that callers handle gets past the slot only by an offer. -/
theorem failure_move (step : Moves map h hasPlace isOpen slot w m) {e : Failure}
    (failed : m.worker.stage.failure? = some e) (ordinary : e.isOrdinary = true) :
    w.stage.failure? = some e ∨ w.stage.offer? = some e := by
  cases step with
  | begin | complete | call | answered | mapped => cases failed
  | raised | faulty =>
    simp only [Worker.moveTo] at failed
    have unhandled := Stage.failure?_ofFailure failed
    exact absurd (ordinary.symm.trans unhandled) (by decide)
  | offer stage =>
    right
    simp only [Worker.moveTo] at failed
    rw [stage, ← failed]
    split <;> rfl
  | announce stage =>
    left
    rw [stage, ← failed]
    rfl
  | @settle result stage =>
    left
    rw [stage, ← failed]
    cases result <;> rfl

/-- A call that is waited for was started, and what is offered is an error that callers handle. -/
structure Proper (w : Worker ρ η) : Prop where
  called : ∀ facet todo, w.stage = .calling facet todo → w.hasStarted facet = true
  offers : ∀ e, w.stage.offer? = some e → e.isOrdinary = true

theorem proper_start (h : Handle ρ) : (Worker.start h : Worker ρ η).Proper := ⟨nofun, nofun⟩

theorem proper_of_failure {read : Snapshot η} {deeds : List Deed} (e : Failure) :
    (⟨read, deeds, .ofFailure e⟩ : Worker ρ η).Proper := by
  unfold Stage.ofFailure
  split
  next ordinary =>
    refine ⟨nofun, ?_⟩
    intro offered same
    cases same
    exact ordinary
  next => exact ⟨nofun, nofun⟩

theorem proper_move (step : Moves map h hasPlace isOpen slot w m) : m.worker.Proper := by
  cases step with
  | begin | complete | answered | mapped | announce | settle => exact ⟨nofun, nofun⟩
  | call =>
    refine ⟨?_, nofun⟩
    intro facet todo calling
    cases calling
    simp [Worker.moveTo, hasStarted]
  | raised | faulty => exact proper_of_failure _
  | offer =>
    simp only [Worker.moveTo]
    split <;> exact ⟨nofun, nofun⟩

theorem failure_of_told {e : Failure} (told : w.stage.result? = some (.error e)) :
    w.stage.failure? = some e := by
  unfold Stage.result? at told
  split at told
  next stage =>
    cases told
    rw [stage]
    rfl
  next => cases told

theorem hasFailed_iff : w.hasFailed = true ↔ ∃ e, w.stage.result? = some (.error e) := by
  unfold hasFailed
  split
  next e told => exact ⟨fun _ => ⟨e, told⟩, fun _ => rfl⟩
  next other => exact ⟨nofun, fun ⟨e, told⟩ => (other e told).elim⟩

theorem unknown_of_moves (step : Moves map h hasPlace isOpen slot w m) :
    w.stage.result? = none := by
  cases step <;> simp_all [Stage.result?]

theorem deliver?_eq_some (told : w.deliver? = some w') :
    ∃ result, w.stage = .settled result ∧ w' = { w with stage := .delivered result } := by
  unfold deliver? at told
  split at told
  next result stage =>
    cases told
    exact ⟨result, stage, rfl⟩
  next => cases told

namespace Tracks

variable (tracks : w.Tracks map h)
include tracks

theorem move (step : Moves map h hasPlace isOpen slot w m) : m.worker.Tracks map h :=
  (forecast_move step).trans tracks

theorem deliver (told : w.deliver? = some w') : w'.Tracks map h := by
  obtain ⟨result, stage, rfl⟩ := deliver?_eq_some told
  refine Eq.trans ?_ tracks
  simp only [forecast, stage, Stage.ahead]

theorem deeds_initial : w.deeds <+: (h.run map).1 := by
  rw [← show w.forecast map h = h.run map from tracks]
  exact List.prefix_append _ _

theorem deeds_of_done (done : w.stage.isDone = true) : w.deeds = (h.run map).1 := by
  rw [← show w.forecast map h = h.run map from tracks, forecast]
  cases stage : w.stage <;> simp_all [Stage.isDone, Stage.ahead]

theorem result_of_delivered {result : Except Failure (Snapshot η)}
    (told : w.stage.result? = some result) : h.fetch map = result := by
  rw [Handle.fetch, ← show w.forecast map h = h.run map from tracks, forecast]
  cases stage : w.stage <;> simp_all [Stage.result?, Stage.ahead]

theorem fetch_of_offer {e : Failure} (offered : w.stage.offer? = some e) :
    h.fetch map = .error e := by
  rw [Handle.fetch, ← show w.forecast map h = h.run map from tracks, forecast]
  unfold Stage.offer? at offered
  split at offered <;> simp_all [Stage.ahead]

end Tracks

end Worker

end Deployments.Collection
