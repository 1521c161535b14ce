import Mathlib.Data.List.Forall2
import Deployments.Proofs.Collection.Worker

/-!
The states that a collection reaches. In each of them every worker tracks its handle, and the slot,
the workers that are done and the loop agree with one another: no worker has failed with an error
that callers handle while the slot is empty, the slot holds the failure of a deployment, and the
loop is awake only if it was told of a failure or of all workers.
-/

namespace List

theorem Forall₂.set {α β : Type} {R : α → β → Prop} {as : List α} {bs : List β}
    (all : Forall₂ R as bs) {i : Nat} {a : α} {b : β} (place : as[i]? = some a) (related : R a b) :
    Forall₂ R as (bs.set i b) := by
  induction all generalizing i with
  | nil => exact .nil
  | cons head tail ih =>
    cases i with
    | zero =>
      cases place
      exact .cons related tail
    | succ i => exact .cons head (ih place)

theorem Forall₂.getElem? {α β : Type} {R : α → β → Prop} {as : List α} {bs : List β}
    (all : Forall₂ R as bs) {i : Nat} {a : α} {b : β} (left : as[i]? = some a)
    (right : bs[i]? = some b) : R a b := by
  induction all generalizing i with
  | nil => cases left
  | cons head tail ih =>
    cases i with
    | zero =>
      cases left
      cases right
      exact head
    | succ i => exact ih left right

theorem Forall₂.exists_left {α β : Type} {R : α → β → Prop} {as : List α} {bs : List β}
    (all : Forall₂ R as bs) {i : Nat} {b : β} (right : bs[i]? = some b) :
    ∃ a, as[i]? = some a ∧ R a b := by
  induction all generalizing i with
  | nil => cases right
  | cons head tail ih =>
    cases i with
    | zero =>
      cases right
      exact ⟨_, rfl, head⟩
    | succ i => exact ih right

end List

namespace Deployments.Collection

variable {ρ η : Facet → Type} {c : Collection ρ η} {s t : State ρ η} {action : Action}

inductive Step (c : Collection ρ η) (s : State ρ η) : Action → State ρ η → Prop where
  | worker {i : Nat} {h : Handle ρ} {w : Worker ρ η} {m : Move ρ η}
    (handle : c.handles[i]? = some h) (place : s.workers[i]? = some w)
    (move : w.Moves c.map h (c.hasPlace s i) (c.isOpen s i) s.slot m) :
    Step c s (.worker i) (s.after i m)
  | deliver {i : Nat} {w w' : Worker ρ η} (place : s.workers[i]? = some w)
    (told : w.deliver? = some w') : Step c s (.deliver i) (s.put i w')
  | wake (waiting : s.waiter = .waiting)
    (told : s.workers.any (·.hasFailed) = true ∨ s.allDelivered = true) :
    Step c s .wake { s with waiter := .awake }
  | finish (awake : s.waiter = .awake) : Step c s .finish s.finished

theorem step_of_step? (taken : c.step? s action = some t) : Step c s action t := by
  unfold step? at taken
  split at taken
  next i =>
    split at taken
    next handle place =>
      obtain ⟨m, move, rfl⟩ := Option.map_eq_some_iff.mp taken
      exact .worker handle place (Worker.moves_of_move? move)
    next => cases taken
  next i =>
    obtain ⟨w, place, taken⟩ := Option.bind_eq_some_iff.mp taken
    obtain ⟨w', told, rfl⟩ := Option.map_eq_some_iff.mp taken
    exact .deliver place told
  next =>
    split at taken
    next waiting =>
      split at taken
      next told =>
        cases taken
        exact .wake waiting (Bool.or_eq_true_iff.mp told)
      next => cases taken
    next => cases taken
  next =>
    split at taken
    next awake =>
      cases taken
      exact .finish awake
    next => cases taken

theorem runFrom?_append (s : State ρ η) (first rest : List Action) :
    c.runFrom? s (first ++ rest) = (c.runFrom? s first).bind fun t => c.runFrom? t rest := by
  induction first generalizing s with
  | nil => rfl
  | cons action first ih =>
    simp only [List.cons_append, runFrom?]
    cases c.step? s action with
    | none => rfl
    | some t => exact ih t

theorem Reaches.refl (c : Collection ρ η) (s : State ρ η) : c.Reaches s s := ⟨[], rfl⟩

theorem Reaches.step {u : State ρ η} (reached : c.Reaches s t) (taken : c.step? t action = some u) :
    c.Reaches s u := by
  obtain ⟨actions, run⟩ := reached
  refine ⟨actions ++ [action], ?_⟩
  simp [runFrom?_append, run, runFrom?, taken]

/-- What holds at the start and is kept by every step of a reached state holds in all of them. -/
theorem Reaches.invariant {I : State ρ η → Prop} (reached : c.Reaches c.start s) (first : I c.start)
    (next : ∀ s action t, c.Reaches c.start s → I s → Step c s action t → I t) : I s := by
  obtain ⟨actions, run⟩ := reached
  have all : ∀ (actions : List Action) (s t : State ρ η), c.Reaches c.start s → I s →
      c.runFrom? s actions = some t → I t := by
    intro actions
    induction actions with
    | nil =>
      intro s t _ holds run
      cases run
      exact holds
    | cons action actions ih =>
      intro s t reached holds run
      obtain ⟨u, taken, run⟩ := Option.bind_eq_some_iff.mp run
      exact ih u t (reached.step taken) (next s action u reached holds (step_of_step? taken)) run
  exact all actions c.start s (.refl c _) first run

/-- The loop was told what wakes it: a failure, or the end of all workers. -/
def Told (workers : List (Worker ρ η)) : Prop :=
  (∃ w ∈ workers, w.hasFailed = true) ∨ ∀ w ∈ workers, w.stage.result?.isSome = true

theorem told_iff (s : State ρ η) :
    Told s.workers ↔ s.workers.any (·.hasFailed) = true ∨ s.allDelivered = true := by
  simp only [Told, State.allDelivered, List.any_eq_true, List.all_eq_true]

/-- What the loop was told stays, as a worker of whose end it knows takes no step. -/
theorem Told.set {workers : List (Worker ρ η)} (told : Told workers) {i : Nat} {w : Worker ρ η}
    (place : workers[i]? = some w) (unknown : w.stage.result? = none) (w' : Worker ρ η) :
    Told (workers.set i w') := by
  rcases told with ⟨failed, member, hasFailed⟩ | all
  · obtain ⟨j, found⟩ := List.mem_iff_getElem?.mp member
    have other : i ≠ j := by
      rintro rfl
      cases place.symm.trans found
      simp [Worker.hasFailed, unknown] at hasFailed
    refine .inl ⟨failed, List.mem_of_getElem? (i := j) ?_, hasFailed⟩
    rw [List.getElem?_set_ne other, found]
  · have known := all w (List.mem_of_getElem? place)
    rw [unknown] at known
    cases known

/-- What ties the parts of a reached state together. -/
structure Coherent (c : Collection ρ η) (s : State ρ η) : Prop where
  tracks : List.Forall₂ (fun h w => w.Tracks c.map h ∧ w.Proper) c.handles s.workers
  slot : ∀ w ∈ s.workers, ∀ e, w.stage.failure? = some e → e.isOrdinary = true →
    s.slot.held.isSome = true
  held : ∀ e, s.slot.held = some e → ∃ h ∈ c.handles, h.fetch c.map = .error e
  awake : s.waiter = .awake → Told s.workers

theorem coherent_start (c : Collection ρ η) : Coherent c c.start where
  tracks := by
    refine List.forall₂_map_right_iff.mpr (List.forall₂_same.mpr ?_)
    intro h _
    exact ⟨Worker.tracks_start c.map h, Worker.proper_start h⟩
  slot w member e failed := by
    obtain ⟨h, _, rfl⟩ := List.mem_map.mp member
    cases failed
  held e held := by cases held
  awake awake := by
    simp only [start] at awake
    split at awake <;> cases awake

theorem Coherent.worker (coherent : Coherent c s) {i : Nat} {h : Handle ρ} {w : Worker ρ η}
    {m : Move ρ η} (handle : c.handles[i]? = some h) (place : s.workers[i]? = some w)
    (move : w.Moves c.map h (c.hasPlace s i) (c.isOpen s i) s.slot m) :
    Coherent c (s.after i m) where
  tracks := by
    have old := coherent.tracks.getElem? handle place
    exact coherent.tracks.set handle ⟨old.1.move move, Worker.proper_move move⟩
  slot w' member e failed ordinary := by
    have after : (s.after i m).slot.held = s.slot.held.or w.stage.offer? := Worker.held_move move
    rw [after, Option.isSome_or, Bool.or_eq_true]
    rcases List.mem_or_eq_of_mem_set member with member | rfl
    · exact .inl (coherent.slot w' member e failed ordinary)
    · rcases Worker.failure_move move failed ordinary with failed | offered
      · exact .inl (coherent.slot w (List.mem_of_getElem? place) e failed ordinary)
      · exact .inr (by rw [offered]; rfl)
  held e held := by
    have after : (s.after i m).slot.held = s.slot.held.or w.stage.offer? := Worker.held_move move
    rw [after, Option.or_eq_some_iff] at held
    rcases held with held | ⟨_, offered⟩
    · exact coherent.held e held
    · have old := coherent.tracks.getElem? handle place
      exact ⟨h, List.mem_of_getElem? handle, old.1.fetch_of_offer offered⟩
  awake awake := (coherent.awake awake).set place (Worker.unknown_of_moves move) m.worker

theorem Coherent.deliver (coherent : Coherent c s) {i : Nat} {w w' : Worker ρ η}
    (place : s.workers[i]? = some w) (told : w.deliver? = some w') : Coherent c (s.put i w') := by
  obtain ⟨h, handle, old, _⟩ := coherent.tracks.exists_left place
  have tracks := old.deliver told
  obtain ⟨result, stage, rfl⟩ := Worker.deliver?_eq_some told
  constructor
  case tracks => exact coherent.tracks.set handle ⟨tracks, nofun, nofun⟩
  case slot =>
    intro other member e failed ordinary
    rcases List.mem_or_eq_of_mem_set member with member | rfl
    · exact coherent.slot other member e failed ordinary
    · refine coherent.slot w (List.mem_of_getElem? place) e ?_ ordinary
      rw [stage, ← failed]
      cases result <;> rfl
  case held => exact coherent.held
  case awake =>
    intro awake
    refine (coherent.awake awake).set place ?_ _
    rw [stage]
    rfl

theorem coherent_of_reaches (reached : c.Reaches c.start s) : Coherent c s := by
  refine reached.invariant (coherent_start c) ?_
  intro s action t _ coherent step
  cases step with
  | worker handle place move => exact coherent.worker handle place move
  | deliver place told => exact coherent.deliver place told
  | wake _ told => exact { coherent with awake := fun _ => (told_iff s).mpr told }
  | finish => exact { coherent with awake := nofun }

theorem length_workers (reached : c.Reaches c.start s) : s.workers.length = c.handles.length :=
  (coherent_of_reaches reached).tracks.length_eq.symm

theorem exists_worker (reached : c.Reaches c.start s) {i : Nat} (inside : i < c.handles.length) :
    ∃ w, s.workers[i]? = some w := by
  rw [← length_workers reached] at inside
  exact ⟨_, List.getElem?_eq_getElem inside⟩

end Deployments.Collection
