import Mathlib.Data.List.Basic
import Deployments.Proofs.Collection.Progress

/-!
What a collection logs. Lines are written by the loop and by the worker whose error the slot has
stored, and that worker may be late. What has been written and what that worker has still to write
are, at any time, the line that the collection began with, one for the error in the slot and one
for the snapshots returned.
-/

namespace List

/-- Of the two items of a place, the one that is left is found in the one row and not the other. -/
theorem filterMap_set_perm {α β : Type} (f : α → Option β) {items : List α} {i : Nat} {old : α}
    (place : items[i]? = some old) (new : α) :
    ((items.set i new).filterMap f ++ (f old).toList).Perm
      (items.filterMap f ++ (f new).toList) := by
  induction items generalizing i with
  | nil => cases place
  | cons head tail ih =>
    have cons (a : α) (rest : List α) :
        (a :: rest).filterMap f = (f a).toList ++ rest.filterMap f := by
      cases found : f a <;> simp [found]
    cases i with
    | zero =>
      cases place
      rw [set_cons_zero, cons, cons, append_assoc, append_assoc]
      calc (f new).toList ++ (tail.filterMap f ++ (f old).toList)
        _ ~ tail.filterMap f ++ (f old).toList ++ (f new).toList := perm_append_comm
        _ ~ (f old).toList ++ tail.filterMap f ++ (f new).toList := perm_append_comm.append_right _
        _ = (f old).toList ++ (tail.filterMap f ++ (f new).toList) := append_assoc ..
    | succ i =>
      rw [set_cons_succ, cons, cons, append_assoc, append_assoc]
      exact (ih place).append_left _

end List

namespace Deployments.Collection

variable {ρ η : Facet → Type} {c : Collection ρ η} {s t : State ρ η}

def Stage.unlogged? : Stage ρ η → Option Failure
  | announcing e => some e
  | _ => none

theorem Stage.unlogged?_ofFailure (e : Failure) : (ofFailure e : Stage ρ η).unlogged? = none := by
  unfold ofFailure
  split <;> rfl

def stopping (e : Failure) : Level × Text := (.debug, "Stopping collection: " ++ e.message)

def collecting (n : Nat) : Level × Text :=
  (.info, "Collecting " ++ toString n ++ " deployment(s)")

def collected (n : Nat) : Level × Text :=
  (.info, "Collected " ++ toString n ++ " deployment(s)")

/-- The log of a collection of so many deployments that has ended and drained. -/
inductive Logs : Nat → Except Failure (List (Snapshot η)) → List (Level × Text) → Prop where
  | nothing : Logs 0 (.ok []) [(.debug, "No deployments to collect")]
  | collected {n : Nat} {snapshots : List (Snapshot η)} (filled : 0 < n)
    (complete : snapshots.length = n) : Logs n (.ok snapshots) [collecting n, collected n]
  | stopped {n : Nat} {e : Failure} (filled : 0 < n) :
    Logs n (.error e) [collecting n, stopping e]

namespace State

def unlogged (s : State ρ η) : List Failure := s.workers.filterMap (·.stage.unlogged?)

/-- The line for the snapshots that have been returned. -/
def closing (s : State ρ η) : List (Level × Text) :=
  match s.waiter with
  | .returned (.ok snapshots) => [collected snapshots.length]
  | _ => []

end State

/-- A worker owes the line for its error from the moment at which the slot has stored it. -/
theorem Worker.lines_move {map : Mapping ρ η} {h : Handle ρ} {hasPlace : Bool}
    {isOpen : Facet → Bool} {slot : ErrorSlot Failure} {w : Worker ρ η} {m : Move ρ η}
    (step : w.Moves map h hasPlace isOpen slot m) :
    m.lines ++ m.worker.stage.unlogged?.toList.map stopping ++ slot.held.toList.map stopping =
      w.stage.unlogged?.toList.map stopping ++ m.slot.held.toList.map stopping := by
  cases step with
  | begin stage | complete stage | call stage | answered stage | mapped stage | settle stage =>
    simp [Worker.moveTo, stage, Stage.unlogged?]
  | raised stage | faulty stage =>
    simp only [Worker.moveTo, stage, Stage.unlogged?_ofFailure]
    simp [Stage.unlogged?]
  | offer stage =>
    cases held : slot.held <;>
      simp [Worker.moveTo, stage, ErrorSlot.offer, held, Stage.unlogged?]
  | announce stage => simp [Worker.moveTo, stage, Stage.unlogged?, stopping]

/-- What was logged after the first line, with what workers have still to log, is a line for the
error in the slot and one for the snapshots returned. -/
def Balanced (c : Collection ρ η) (s : State ρ η) : Prop :=
  ∃ rest, s.lines = c.start.lines ++ rest ∧
    (rest ++ s.unlogged.map stopping).Perm (s.slot.held.toList.map stopping ++ s.closing)

theorem balanced_start (some : c.handles ≠ []) : Balanced c c.start := by
  have idle : c.start.unlogged = [] := by
    simp [State.unlogged, start, Worker.start, List.filterMap_map, Function.comp_def,
      Stage.unlogged?]
  refine ⟨[], (List.append_nil _).symm, ?_⟩
  rw [idle]
  simp [State.closing, start, some, ErrorSlot.empty]

theorem Balanced.worker (balanced : Balanced c s) {i : Nat} {h : Handle ρ} {w : Worker ρ η}
    {m : Move ρ η} (place : s.workers[i]? = some w)
    (move : w.Moves c.map h (c.hasPlace s i) (c.isOpen s i) s.slot m) :
    Balanced c (s.after i m) := by
  obtain ⟨rest, lines, perm⟩ := balanced
  refine ⟨rest ++ m.lines, ?_, ?_⟩
  · rw [State.after, lines, List.append_assoc]
  · have turned := (List.filterMap_set_perm (·.stage.unlogged?) place m.worker).map stopping
    have own := Worker.lines_move move
    have closing : (s.after i m).closing = s.closing := rfl
    have slot : (s.after i m).slot = m.slot := rfl
    have unlogged : (s.after i m).unlogged =
        (s.workers.set i m.worker).filterMap (·.stage.unlogged?) := rfl
    rw [closing, slot, unlogged]
    -- The lines of the worker that moves are exchanged on both sides, so they are counted.
    rw [List.perm_iff_count] at perm turned ⊢
    intro line
    have before := perm line
    have swapped := turned line
    have moved := congrArg (List.count line) own
    simp only [State.unlogged, List.map_append, List.count_append] at before swapped moved ⊢
    omega

theorem Balanced.deliver (balanced : Balanced c s) {i : Nat} {w w' : Worker ρ η}
    (place : s.workers[i]? = some w) (told : w.deliver? = some w') : Balanced c (s.put i w') := by
  obtain ⟨result, stage, rfl⟩ := Worker.deliver?_eq_some told
  obtain ⟨rest, lines, perm⟩ := balanced
  refine ⟨rest, lines, ?_⟩
  have turned := (List.filterMap_set_perm (·.stage.unlogged?) place
    { w with stage := .delivered result }).map stopping
  simp only [stage, Stage.unlogged?, Option.toList_none, List.append_nil] at turned
  exact (turned.append_left rest).trans perm

theorem Balanced.finish (balanced : Balanced c s) (awake : s.waiter = .awake) :
    Balanced c s.finished := by
  obtain ⟨rest, lines, perm⟩ := balanced
  have open_ : s.closing = [] := by rw [State.closing, awake]
  rw [open_, List.append_nil] at perm
  refine ⟨rest ++ s.finished.closing, ?_, ?_⟩
  · simp only [State.finished, State.closing, lines, List.append_assoc]
    cases s.verdict <;> rfl
  · have kept : s.finished.unlogged = s.unlogged := rfl
    have slot : s.finished.slot = s.slot := rfl
    rw [kept, slot, List.append_assoc]
    exact ((List.perm_append_comm.append_left rest).trans (by rw [List.append_assoc])).trans
      (perm.append_right _)

theorem balanced_of_reaches (some : c.handles ≠ []) (reached : c.Reaches c.start s) :
    Balanced c s := by
  refine reached.invariant (balanced_start some) ?_
  intro s action t _ balanced step
  cases step with
  | worker _ place move => exact balanced.worker place move
  | deliver place told => exact balanced.deliver place told
  | wake waiting =>
    obtain ⟨rest, lines, perm⟩ := balanced
    refine ⟨rest, lines, ?_⟩
    have closing : s.closing = [] := by rw [State.closing, waiting]
    rwa [closing] at perm
  | finish awake => exact balanced.finish awake

theorem eq_start_of_nil (none_ : c.handles = []) (reached : c.Reaches c.start s) : s = c.start := by
  refine reached.invariant (I := fun s => s = c.start) rfl ?_
  rintro _ action t _ rfl step
  cases step with
  | worker handle => simp [none_] at handle
  | deliver place => simp [start, none_] at place
  | wake waiting => simp [start, none_] at waiting
  | finish awake => simp [start, none_] at awake

theorem unlogged_of_drained (drained : ∀ w ∈ s.workers, w.stage.isDone = true) :
    s.unlogged = [] := by
  refine List.filterMap_eq_nil_iff.mpr fun w member => ?_
  have done := drained w member
  cases stage : w.stage <;> simp_all [Stage.isDone, Stage.unlogged?]

theorem held_of_outcome
    (ordinary : ∀ h ∈ c.handles, ∀ facet e, h.answer facet = .error e → e.isOrdinary = true)
    (reached : c.Reaches c.start s) {outcome : Except Failure (List (Snapshot η))}
    (ended : s.outcome? = some outcome) :
    (∃ snapshots, outcome = .ok snapshots ∧ snapshots.length = c.handles.length ∧
        s.slot.held = none) ∨ ∃ e, outcome = .error e ∧ s.slot.held = some e := by
  have handled {h : Handle ρ} {e : Failure} (member : h ∈ c.handles)
      (failed : h.fetch c.map = .error e) (unhandled : e.isOrdinary = false) : False := by
    have ordinary := h.fetch_isOrdinary c.map failed (ordinary h member)
    rw [unhandled] at ordinary
    cases ordinary
  cases judged_of_reaches reached outcome ended with
  | @complete snapshots all =>
    have length := congrArg List.length all
    rw [List.length_map, List.length_map] at length
    refine .inl ⟨snapshots, rfl, length.symm, ?_⟩
    cases held : s.slot.held with
    | none => rfl
    | some e =>
      obtain ⟨h, member, failed⟩ := (coherent_of_reaches reached).held e held
      have fetched : h.fetch c.map ∈ c.handles.map (·.fetch c.map) := List.mem_map_of_mem member
      rw [all, failed] at fetched
      obtain ⟨_, _, same⟩ := List.mem_map.mp fetched
      cases same
  | first stored => exact .inr ⟨_, rfl, stored⟩
  | unhandled member failed unhandled => exact (handled member failed unhandled).elim
  | early _ handle failed unhandled =>
    exact (handled (List.mem_of_getElem? handle) failed unhandled).elim

/-- Once a collection whose calls raise only errors that callers handle has drained, it goes on
until it has ended, and then its log says that there was nothing to collect, or how many
deployments it began with and either how many it collected or the error that it ended with, once,
however many deployments failed and however late. -/
theorem logs_of_drained (c : Collection ρ η)
    (ordinary : ∀ h ∈ c.handles, ∀ facet e, h.answer facet = .error e → e.isOrdinary = true)
    (s : State ρ η) (reached : c.Reaches c.start s)
    (drained : ∀ w ∈ s.workers, w.stage.isDone = true) :
    (c.IsFinal s → ∃ outcome, s.outcome? = some outcome) ∧
      ∀ outcome, s.outcome? = some outcome → Logs c.handles.length outcome s.lines := by
  refine ⟨fun final => returned_of_isFinal final drained, fun outcome ended => ?_⟩
  cases handles : c.handles with
  | nil =>
    obtain rfl := eq_start_of_nil handles reached
    simp only [State.outcome?, start, handles] at ended ⊢
    cases ended
    exact .nothing
  | cons h rest =>
    have some : c.handles ≠ [] := by simp [handles]
    have filled : 0 < c.handles.length := List.length_pos_iff.mpr some
    rw [← handles]
    obtain ⟨written, lines, perm⟩ := balanced_of_reaches some reached
    have first : c.start.lines = [collecting c.handles.length] := by
      simp [start, some, collecting, counted, Text.append_assoc]
    rw [unlogged_of_drained drained, List.map_nil, List.append_nil] at perm
    have waiter : s.waiter = .returned outcome := by
      unfold State.outcome? at ended
      split at ended
      next waiter =>
        cases ended
        exact waiter
      next => cases ended
    rw [lines, first]
    rcases held_of_outcome ordinary reached ended with
      ⟨snapshots, rfl, length, held⟩ | ⟨e, rfl, held⟩
    · have last : written = [collected snapshots.length] := by
        simpa [State.closing, waiter, held] using perm
      rw [last, length]
      exact .collected filled length
    · have last : written = [stopping e] := by
        simpa [State.closing, waiter, held] using perm
      rw [last]
      exact .stopped filled

/-- The second one of two deployments makes the offer that the slot keeps, the first one wakes the
loop, and the error is logged after it has been raised. -/
theorem logs_of_late_line :
    let left : Handle Facet.Record := .failing "left" .errands ⟨"OSError", [.text "gone"]⟩
    let right : Handle Facet.Record := .failing "right" .errands ⟨"ValueError", [.text "bad"]⟩
    let c : Collection Facet.Record Facet.Entry := ⟨Facet.entryOf, [left, right], .free⟩
    let actions : List Action := .worker 0 :: List.replicate 4 (.worker 1) ++
      List.replicate 4 (.worker 0) ++ [.deliver 0, .wake, .finish, .worker 1, .worker 1]
    ∃ s e, c.runFrom? c.start actions = some s ∧ (∀ w ∈ s.workers, w.stage.isDone = true) ∧
      right.fetch c.map = .error e ∧ s.outcome? = some (.error e) ∧
      s.lines = [collecting 2, stopping e] := by
  intro left right c actions
  have ordinary : ∀ h ∈ c.handles, ∀ facet e, h.answer facet = .error e →
      e.isOrdinary = true := by
    intro h member facet e answered
    have known : h = left ∨ h = right := by simpa [c] using member
    rcases known with rfl | rfl <;> cases facet <;> cases answered <;> rfl
  obtain ⟨s, e, run, failed, ended⟩ : ∃ s e, c.runFrom? c.start actions = some s ∧
      right.fetch c.map = .error e ∧ s.outcome? = some (.error e) := ⟨_, _, rfl, rfl, rfl⟩
  have last : (c.runFrom? c.start actions).map (·.workers.all (·.stage.isDone)) = some true := by
    decide
  rw [run] at last
  have drained : ∀ w ∈ s.workers, w.stage.isDone = true :=
    List.all_eq_true.mp (Option.some.inj last)
  have logs := (logs_of_drained c ordinary s ⟨actions, run⟩ drained).2 _ ended
  have lines : s.lines = [collecting 2, stopping e] := by
    generalize s.lines = lines at logs ⊢
    cases logs
    rfl
  exact ⟨s, e, run, drained, failed, ended, lines⟩

end Deployments.Collection
