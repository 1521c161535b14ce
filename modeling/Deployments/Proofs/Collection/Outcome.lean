import Deployments.Proofs.Collection.Reachable

/-!
How a collection ends. It returns the snapshots of all deployments if each of them can be fetched
on its own, and otherwise the first error that was offered to the slot, in whatever order the
workers and the loop took their steps.
-/

namespace Deployments.Collection

variable {ρ η : Facet → Type} {c : Collection ρ η} {s t : State ρ η} {action : Action}

/-- The error that a step offers to the slot, and the worker that offers it. -/
def State.offered? (s : State ρ η) : Action → Option (Nat × Failure)
  | .worker i => (s.workers[i]?).bind fun w => w.stage.offer?.map (i, ·)
  | _ => none

/-- The errors offered to the slot in the course of a run, in their order. -/
def offers (c : Collection ρ η) (s : State ρ η) : List Action → List (Nat × Failure)
  | [] => []
  | action :: rest =>
    match c.step? s action with
    | some t => (s.offered? action).toList ++ offers c t rest
    | none => []

theorem held_step (step : Step c s action t) :
    t.slot.held = s.slot.held.or ((s.offered? action).map Prod.snd) := by
  cases step with
  | @worker i h w m _ place move =>
    have after : (s.after i m).slot.held = s.slot.held.or w.stage.offer? := Worker.held_move move
    rw [after]
    simp only [State.offered?, place, Option.bind_some, Option.map_map]
    cases w.stage.offer? <;> rfl
  | deliver | wake | finish => simp [State.offered?, State.put, State.finished]

theorem held_run {actions : List Action} (run : c.runFrom? s actions = some t) :
    t.slot.held = s.slot.held.or ((c.offers s actions).head?.map Prod.snd) := by
  induction actions generalizing s with
  | nil =>
    cases run
    simp [offers]
  | cons action rest ih =>
    obtain ⟨u, taken, run⟩ := Option.bind_eq_some_iff.mp run
    rw [ih run, held_step (step_of_step? taken), offers, taken]
    cases s.offered? action <;> cases s.slot.held <;> simp

theorem fetch_of_offers {actions : List Action} (reached : c.Reaches c.start s) {i : Nat}
    {e : Failure} (offered : (i, e) ∈ c.offers s actions) :
    ∃ h, c.handles[i]? = some h ∧ h.fetch c.map = .error e := by
  induction actions generalizing s with
  | nil => cases offered
  | cons action rest ih =>
    unfold offers at offered
    split at offered
    next t taken =>
      rcases List.mem_append.mp offered with now | later
      · cases action with
        | worker j =>
          obtain ⟨w, place, now⟩ := Option.bind_eq_some_iff.mp (Option.mem_toList.mp now)
          obtain ⟨f, offer, same⟩ := Option.map_eq_some_iff.mp now
          cases same
          obtain ⟨h, handle, tracks, _⟩ :=
            (coherent_of_reaches reached).tracks.exists_left place
          exact ⟨h, handle, tracks.fetch_of_offer offer⟩
        | deliver | wake | finish => cases now
      · exact ih (reached.step taken) later
    next => cases offered

section Results

variable {map : Mapping ρ η} {handles : List (Handle ρ)} {workers : List (Worker ρ η)}

theorem results_ok (tracks : List.Forall₂ (fun h w => w.Tracks map h ∧ w.Proper) handles workers)
    {snapshots : List (Snapshot η)} (complete : State.results workers = .ok snapshots) :
    handles.map (·.fetch map) = snapshots.map .ok := by
  induction tracks generalizing snapshots with
  | nil =>
    cases complete
    rfl
  | @cons h w handles workers head tail ih =>
    unfold State.results at complete
    split at complete
    next snapshot told =>
      cases rest : State.results workers with
      | error e =>
        rw [rest] at complete
        cases complete
      | ok others =>
        rw [rest] at complete
        cases complete
        simp only [List.map_cons, ih rest, head.1.result_of_delivered told]
    next => cases complete
    next => cases complete

theorem results_error
    (tracks : List.Forall₂ (fun h w => w.Tracks map h ∧ w.Proper) handles workers) {e : Failure}
    (failed : State.results workers = .error e) :
    (∃ h ∈ handles, h.fetch map = .error e ∧ ∃ w ∈ workers, w.stage.failure? = some e) ∨
      (e = .unfinished ∧ ∃ w ∈ workers, w.stage.result? = none) := by
  induction tracks with
  | nil => cases failed
  | @cons h w handles workers head tail ih =>
    unfold State.results at failed
    split at failed
    next snapshot told =>
      have later : State.results workers = .error e := by
        cases rest : State.results workers with
        | error f =>
          rw [rest] at failed
          cases failed
          rfl
        | ok others =>
          rw [rest] at failed
          cases failed
      rcases ih later with ⟨other, member, fetched, v, place, past⟩ | ⟨same, v, place, missing⟩
      · exact .inl ⟨other, List.mem_cons_of_mem _ member, fetched, v,
          List.mem_cons_of_mem _ place, past⟩
      · exact .inr ⟨same, v, List.mem_cons_of_mem _ place, missing⟩
    next found told =>
      cases failed
      exact .inl ⟨h, List.mem_cons_self, head.1.result_of_delivered told, w, List.mem_cons_self,
        Worker.failure_of_told told⟩
    next missing =>
      cases failed
      exact .inr ⟨rfl, w, List.mem_cons_self, missing⟩

theorem results_of_first {w : Worker ρ η} {e : Failure} (first : workers[0]? = some w)
    (told : w.stage.result? = some (.error e)) : State.results workers = .error e := by
  cases workers with
  | nil => cases first
  | cons v rest =>
    cases first
    simp only [State.results, told]

end Results

/-- How a collection can end, with what the slot holds. -/
inductive Judged (c : Collection ρ η) (held : Option Failure) :
    Except Failure (List (Snapshot η)) → Prop where
  | complete {snapshots : List (Snapshot η)}
    (all : c.handles.map (·.fetch c.map) = snapshots.map .ok) : Judged c held (.ok snapshots)
  | first {e : Failure} (stored : held = some e) : Judged c held (.error e)
  | unhandled {h : Handle ρ} {e : Failure} (member : h ∈ c.handles)
    (failed : h.fetch c.map = .error e) (unhandled : e.isOrdinary = false) :
    Judged c held (.error e)
  /-- The loop was woken by an error that no slot holds, with the results before it missing. -/
  | early {i : Nat} {h : Handle ρ} {e : Failure} (later : 0 < i)
    (handle : c.handles[i]? = some h) (failed : h.fetch c.map = .error e)
    (unhandled : e.isOrdinary = false) : Judged c held (.error .unfinished)

theorem judged_verdict (coherent : Coherent c s) (told : Told s.workers) :
    Judged c s.slot.held s.verdict := by
  unfold State.verdict
  split
  next e stored => exact .first stored
  next empty =>
    have unhandled : ∀ w ∈ s.workers, ∀ e, w.stage.failure? = some e → e.isOrdinary = false := by
      intro w member e failed
      by_contra ordinary
      have stored := coherent.slot w member e failed (Bool.not_eq_false _ ▸ ordinary)
      rw [empty] at stored
      cases stored
    cases outcome : State.results s.workers with
    | ok snapshots => exact .complete (results_ok coherent.tracks outcome)
    | error e =>
      rcases results_error coherent.tracks outcome with
        ⟨h, member, fetched, w, place, past⟩ | ⟨rfl, w, place, missing⟩
      · exact .unhandled member fetched (unhandled w place e past)
      · rcases told with ⟨failed, member, hasFailed⟩ | all
        · obtain ⟨e, known⟩ := Worker.hasFailed_iff.mp hasFailed
          obtain ⟨i, found⟩ := List.mem_iff_getElem?.mp member
          obtain ⟨h, handle, tracks, _⟩ := coherent.tracks.exists_left found
          have fetched := tracks.result_of_delivered known
          refine .early (Nat.pos_of_ne_zero ?_) handle fetched
            (unhandled failed member e (Worker.failure_of_told known))
          rintro rfl
          rw [results_of_first found known] at outcome
          cases outcome
          exact h.fetch_ne_unfinished c.map fetched
        · have known := all w place
          rw [missing] at known
          cases known

theorem Judged.mono {held : Option Failure} {outcome : Except Failure (List (Snapshot η))}
    (judged : Judged c held outcome) (offered : Option Failure) :
    Judged c (held.or offered) outcome := by
  cases judged with
  | complete all => exact .complete all
  | first stored => exact .first (by rw [stored, Option.some_or])
  | unhandled member failed unhandled => exact .unhandled member failed unhandled
  | early later handle failed unhandled => exact .early later handle failed unhandled

theorem judged_of_reaches (reached : c.Reaches c.start s) :
    ∀ outcome, s.outcome? = some outcome → Judged c s.slot.held outcome := by
  refine reached.invariant
    (I := fun s => ∀ outcome, s.outcome? = some outcome → Judged c s.slot.held outcome) ?_ ?_
  · intro outcome ended
    simp only [State.outcome?, start] at ended
    split at ended
    next stopped =>
      split at stopped
      next empty =>
        cases stopped
        cases ended
        refine .complete ?_
        rw [List.isEmpty_iff.mp empty]
        rfl
      next => cases stopped
    next => cases ended
  · intro s action t reached judged step outcome ended
    rw [held_step step]
    cases step with
    | worker | deliver => exact (judged outcome ended).mono _
    | wake => cases ended
    | finish awake =>
      cases ended
      have coherent := coherent_of_reaches reached
      exact (judged_verdict coherent (coherent.awake awake)).mono _

/-- The outcome of a collection whose calls raise only errors that callers handle, in whatever order
its steps are taken: all snapshots in the order of the handles exactly if each deployment can be
fetched on its own, and otherwise the first error ever offered, which is that of its deployment. -/
theorem outcome_of_run (c : Collection ρ η)
    (ordinary : ∀ h ∈ c.handles, ∀ facet e, h.answer facet = .error e → e.isOrdinary = true)
    (actions : List Action) (s : State ρ η) (run : c.runFrom? c.start actions = some s)
    (outcome : Except Failure (List (Snapshot η))) (ended : s.outcome? = some outcome) :
    ((∃ snapshots, outcome = .ok snapshots) ↔
        ∀ h ∈ c.handles, ∃ snapshot, h.fetch c.map = .ok snapshot) ∧
      (∀ snapshots, outcome = .ok snapshots →
        c.handles.map (·.fetch c.map) = snapshots.map .ok) ∧
      (∀ e, outcome = .error e → ∃ i h, (c.offers c.start actions).head? = some (i, e) ∧
        c.handles[i]? = some h ∧ h.fetch c.map = .error e) := by
  have reached : c.Reaches c.start s := ⟨actions, run⟩
  have handled : ∀ h ∈ c.handles, ∀ e, h.fetch c.map = .error e → e.isOrdinary = true :=
    fun h member e failed => h.fetch_isOrdinary c.map failed (ordinary h member)
  cases judged_of_reaches reached outcome ended with
  | complete all =>
    refine ⟨⟨fun _ => ?_, fun _ => ⟨_, rfl⟩⟩, ?_, nofun⟩
    · intro h member
      have fetched : h.fetch c.map ∈ c.handles.map (·.fetch c.map) := List.mem_map_of_mem member
      rw [all] at fetched
      obtain ⟨snapshot, _, same⟩ := List.mem_map.mp fetched
      exact ⟨snapshot, same.symm⟩
    · intro snapshots same
      cases same
      exact all
  | @first e stored =>
    have offered := held_run run
    rw [stored, show c.start.slot.held = none from rfl, Option.none_or] at offered
    obtain ⟨⟨i, f⟩, head, same⟩ := Option.map_eq_some_iff.mp offered.symm
    cases same
    obtain ⟨h, handle, failed⟩ := fetch_of_offers (.refl c _) (List.mem_of_head? head)
    refine ⟨⟨nofun, fun all => ?_⟩, nofun, ?_⟩
    · obtain ⟨snapshot, fetched⟩ := all h (List.mem_of_getElem? handle)
      rw [failed] at fetched
      cases fetched
    · intro e same
      cases same
      exact ⟨i, h, head, handle, failed⟩
  | unhandled member failed unhandled =>
    exact absurd ((handled _ member _ failed).symm.trans unhandled) (by decide)
  | early _ handle failed unhandled =>
    have member := List.mem_of_getElem? handle
    exact absurd ((handled _ member _ failed).symm.trans unhandled) (by decide)

/-- The first one of two deployments that fail wakes the loop, after the second one has made the
offer that the slot keeps. -/
theorem outcome_of_two_failures :
    let left : Handle Facet.Record := .failing "left" .errands ⟨"OSError", [.text "gone"]⟩
    let right : Handle Facet.Record := .failing "right" .errands ⟨"ValueError", [.text "bad"]⟩
    let c : Collection Facet.Record Facet.Entry := ⟨Facet.entryOf, [left, right], .free⟩
    let actions : List Action :=
      [.worker 0, .worker 1, .worker 1, .worker 1, .worker 1, .worker 0, .worker 0, .worker 0,
        .worker 0, .deliver 0, .wake, .finish]
    ∃ s e, c.runFrom? c.start actions = some s ∧ s.outcome? = some (.error e) ∧
      (c.offers c.start actions).head? = some (1, e) ∧ right.fetch c.map = .error e := by
  intro left right c actions
  have ordinary : ∀ h ∈ c.handles, ∀ facet e, h.answer facet = .error e →
      e.isOrdinary = true := by
    intro h member facet e answered
    have known : h = left ∨ h = right := by simpa [c] using member
    rcases known with rfl | rfl <;> cases facet <;> cases answered <;> rfl
  obtain ⟨s, e, run, ended⟩ : ∃ s e, c.runFrom? c.start actions = some s ∧
      s.outcome? = some (.error e) := ⟨_, _, rfl, rfl⟩
  obtain ⟨i, h, head, handle, failed⟩ :=
    (outcome_of_run c ordinary actions s run _ ended).2.2 e rfl
  have first : (c.offers c.start actions).head?.map Prod.fst = some 1 := by rfl
  rw [head] at first
  cases first
  cases handle
  exact ⟨s, e, run, ended, head, failed⟩

end Deployments.Collection
