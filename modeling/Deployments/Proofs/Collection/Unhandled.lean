import Deployments.Proofs.Collection.Progress

/-!
Errors that callers do not handle. They wake the loop without being offered to the slot, so the loop
looks at results of which some may still be missing. A collection is sure to end with what its
workers have brought only if no deployment after the first one fails with such an error.
-/

namespace Deployments.Collection

variable {ρ η : Facet → Type} {c : Collection ρ η} {s : State ρ η} {i : Nat}

theorem results_of_missing {workers : List (Worker ρ η)} {w : Worker ρ η}
    (first : workers[0]? = some w) (missing : w.stage.result? = none) :
    State.results workers = .error .unfinished := by
  cases workers with
  | nil => cases first
  | cons v rest =>
    cases first
    simp only [State.results, missing]

/-- The worker has made no call since it took its place. -/
def Stage.isIdle : Stage ρ η → Bool
  | queued | ready _ => true
  | _ => false

theorem Stage.result?_of_isIdle {stage : Stage ρ η} (idle : stage.isIdle = true) :
    stage.result? = none := by
  cases stage <;> first | rfl | cases idle

/-- The loop waits, nothing is in the slot, and one worker alone gets on. -/
structure Alone (s : State ρ η) (i : Nat) : Prop where
  slot : s.slot.held = none
  waiting : s.waiter = .waiting
  others : ∀ j w, j ≠ i → s.workers[j]? = some w → w.stage.isIdle = true

theorem alone_start (nonempty : c.handles ≠ []) (i : Nat) : Alone c.start i where
  slot := rfl
  waiting := by simp [start, nonempty]
  others j w _ place := by
    obtain ⟨h, _, rfl⟩ := List.mem_map.mp (List.mem_of_getElem? place)
    rfl

theorem Alone.put (alone : Alone s i) {j : Nat} {w : Worker ρ η}
    (allowed : j = i ∨ w.stage.isIdle = true) : Alone (s.put j w) i where
  slot := alone.slot
  waiting := alone.waiting
  others k v other place := by
    simp only [State.put] at place
    by_cases same : j = k
    · subst same
      obtain ⟨_, here⟩ := List.getElem?_eq_some_iff.mp place
      rw [List.getElem_set_self] at here
      rw [← here]
      exact allowed.resolve_left other
    · rw [List.getElem?_set_ne same] at place
      exact alone.others k v other place

theorem Alone.after (alone : Alone s i) {j : Nat} {m : Move ρ η} (slot : m.slot.held = none)
    (allowed : j = i ∨ m.worker.stage.isIdle = true) : Alone (s.after j m) i :=
  { alone.put allowed with slot }

section Free

variable (free : c.gates = .free) {h : Handle ρ} {e : Failure}
  (handle : c.handles[i]? = some h) (failed : h.fetch c.map = .error e)
  (unhandled : e.isOrdinary = false)
include free handle failed unhandled

theorem exists_alone_step (reached : c.Reaches c.start s) (alone : Alone s i) :
    (∃ w, s.workers[i]? = some w ∧ w.stage.result? = some (.error e)) ∨
      ∃ action t, c.step? s action = some t ∧ Alone t i := by
  have all := (coherent_of_reaches reached).tracks
  by_cases waits : ∃ (j : Nat) (v : Worker ρ η), s.workers[j]? = some v ∧ v.stage = .queued
  · obtain ⟨j, v, place, queued⟩ := waits
    obtain ⟨j, v, place, queued, hasPlace⟩ := exists_hasPlace reached place queued
    obtain ⟨g, handle, _⟩ := all.exists_left place
    refine .inr ⟨.worker j, s.after j (v.moveTo s.slot (.ready Facet.all)), ?_, ?_⟩
    · simp [step?, handle, place, Worker.move?, queued, hasPlace]
    · exact alone.after alone.slot (.inr rfl)
  obtain ⟨w, place⟩ := exists_worker reached (List.getElem?_eq_some_iff.mp handle).1
  obtain ⟨tracks, proper⟩ := all.getElem? handle place
  cases move : w.move? c.map h (c.hasPlace s i) (c.isOpen s i) s.slot with
  | some m =>
    -- the error to come is not one that callers handle, so it is not offered
    have silent : w.stage.offer? = none := by
      cases offer : w.stage.offer? with
      | none => rfl
      | some f =>
        have ordinary := proper.offers f offer
        rw [Except.error.inj ((tracks.fetch_of_offer offer).symm.trans failed)] at ordinary
        exact absurd (ordinary.symm.trans unhandled) (by decide)
    refine .inr ⟨.worker i, s.after i m, ?_, alone.after ?_ (.inl rfl)⟩
    · simp [step?, handle, place, move]
    · rw [Worker.held_move (Worker.moves_of_move? move), alone.slot, silent, Option.none_or]
  | none =>
    rcases Worker.stage_of_stuck move with done | ⟨queued, _⟩ | ⟨facet, todo, _, closed⟩
    · cases stage : w.stage with
      | settled result =>
        refine .inr ⟨.deliver i, s.put i { w with stage := .delivered result }, ?_, ?_⟩
        · simp [step?, place, Worker.deliver?, stage]
        · exact alone.put (.inl rfl)
      | delivered result =>
        have told : w.stage.result? = some result := by
          rw [stage]
          rfl
        exact .inl ⟨w, place, by rw [told, ← tracks.result_of_delivered told, failed]⟩
      | _ =>
        rw [stage] at done
        cases done
    · exact (waits ⟨i, w, place, queued⟩).elim
    · rw [isOpen_of_free free] at closed
      cases closed

theorem exists_alone_told (reached : c.Reaches c.start s) (alone : Alone s i) :
    ∃ t w, c.Reaches c.start t ∧ Alone t i ∧ t.workers[i]? = some w ∧
      w.stage.result? = some (.error e) := by
  induction left : s.rank using Nat.strongRecOn generalizing s with
  | ind n ih =>
    rcases exists_alone_step free handle failed unhandled reached alone with
      ⟨w, place, told⟩ | ⟨action, t, taken, alone⟩
    · exact ⟨s, w, reached, alone, place, told⟩
    · have less := rank_step (step_of_step? taken)
      exact ih t.rank (left ▸ less) (reached.step taken) alone rfl

theorem exists_unfinished (later : 0 < i) :
    ∃ s, c.Reaches c.start s ∧ s.outcome? = some (.error .unfinished) := by
  have inside := (List.getElem?_eq_some_iff.mp handle).1
  have nonempty : c.handles ≠ [] := List.ne_nil_of_length_pos (by omega)
  obtain ⟨t, w, reached, alone, place, told⟩ :=
    exists_alone_told free handle failed unhandled (.refl c _) (alone_start nonempty i)
  have hasFailed : t.workers.any (·.hasFailed) = true :=
    List.any_eq_true.mpr ⟨w, List.mem_of_getElem? place, Worker.hasFailed_iff.mpr ⟨e, told⟩⟩
  have awake : c.step? t .wake = some { t with waiter := .awake } := by
    simp [step?, alone.waiting, hasFailed]
  have finish : c.step? { t with waiter := .awake } .finish =
      some { t with waiter := .awake }.finished := by
    simp [step?]
  refine ⟨_, (reached.step awake).step finish, ?_⟩
  obtain ⟨first, start⟩ := exists_worker reached (Nat.zero_lt_of_lt inside)
  have missing := Stage.result?_of_isIdle (alone.others 0 first (by omega) start)
  simp only [State.outcome?, State.finished, State.verdict, alone.slot,
    results_of_missing start missing]

end Free

/-- An outcome that workers have brought: the snapshots of all deployments, or the error of one. -/
def OfWorkers (map : Mapping ρ η) (handles : List (Handle ρ)) :
    Except Failure (List (Snapshot η)) → Prop
  | .ok snapshots => handles.map (·.fetch map) = snapshots.map .ok
  | .error e => ∃ h ∈ handles, h.fetch map = .error e

/-- Whatever calls wait for and in whatever order steps are taken, a collection of deployments ends
only with what its workers have brought. -/
def EndsByWorkers (map : Mapping ρ η) (handles : List (Handle ρ)) : Prop :=
  ∀ (gates : Gates) (s : State ρ η) (outcome : Except Failure (List (Snapshot η))),
    Reaches ⟨map, handles, gates⟩ (start ⟨map, handles, gates⟩) s →
    s.outcome? = some outcome → OfWorkers map handles outcome

end Deployments.Collection
