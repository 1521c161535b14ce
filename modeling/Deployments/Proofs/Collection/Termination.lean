import Deployments.Proofs.Collection.Reachable

/-!
Runs of a collection end. Every step takes something from the rank of the state, so no run has more
steps than the budget, and the schedule that goes on as long as it can ends in a final state.
-/

namespace Deployments.Collection

variable {ρ η : Facet → Type} {c : Collection ρ η} {s t : State ρ η} {action : Action}

def Waiter.rank : Waiter η → Nat
  | waiting => 2
  | awake => 1
  | returned _ => 0

/-- The steps that workers have still to take at most, deliveries included. -/
def rankOf : List (Worker ρ η) → Nat
  | [] => 0
  | w :: rest => w.stage.rank + rankOf rest

/-- No run from a state has more steps. -/
def State.rank (s : State ρ η) : Nat := rankOf s.workers + s.waiter.rank

theorem rankOf_set_lt {workers : List (Worker ρ η)} {i : Nat} {w w' : Worker ρ η}
    (place : workers[i]? = some w) (less : w'.stage.rank < w.stage.rank) :
    rankOf (workers.set i w') < rankOf workers := by
  induction workers generalizing i with
  | nil => cases place
  | cons v rest ih =>
    cases i with
    | zero =>
      cases place
      simp only [List.set_cons_zero, rankOf]
      omega
    | succ i =>
      have tail := ih place
      simp only [List.set_cons_succ, rankOf]
      omega

theorem rank_step (step : Step c s action t) : t.rank < s.rank := by
  unfold State.rank
  cases step with
  | @worker i h w m _ place move =>
    have less := rankOf_set_lt place (Worker.rank_move move)
    simp only [State.after, State.put]
    omega
  | @deliver i w w' place told =>
    obtain ⟨result, stage, rfl⟩ := Worker.deliver?_eq_some told
    have less : (Stage.delivered result : Stage ρ η).rank < w.stage.rank := by
      rw [stage]
      exact Nat.zero_lt_one
    have total : rankOf (s.workers.set i { w with stage := .delivered result }) <
        rankOf s.workers := rankOf_set_lt place less
    simp only [State.put]
    omega
  | wake waiting =>
    simp only [waiting, Waiter.rank]
    omega
  | finish awake =>
    simp only [State.finished, awake, Waiter.rank]
    omega

theorem length_add_rank_le {actions : List Action} (run : c.runFrom? s actions = some t) :
    actions.length + t.rank ≤ s.rank := by
  induction actions generalizing s with
  | nil =>
    cases run
    simp
  | cons action rest ih =>
    obtain ⟨u, taken, run⟩ := Option.bind_eq_some_iff.mp run
    have less := rank_step (step_of_step? taken)
    have later := ih run
    rw [List.length_cons]
    omega

theorem rank_start_le (c : Collection ρ η) : c.start.rank ≤ c.budget := by
  have workers : ∀ handles : List (Handle ρ),
      rankOf (handles.map (Worker.start (η := η))) = 17 * handles.length := by
    intro handles
    induction handles with
    | nil => rfl
    | cons h rest ih =>
      have first : (Worker.start (η := η) h).stage.rank = 17 := rfl
      rw [List.map_cons, rankOf, ih, first, List.length_cons]
      omega
  have waiter : c.start.waiter.rank ≤ 2 := by
    simp only [start]
    split <;> simp [Waiter.rank]
  have total := workers c.handles
  simp only [State.rank, budget, start] at total waiter ⊢
  omega

theorem length_le_budget {actions : List Action} (run : c.runFrom? c.start actions = some s) :
    actions.length ≤ c.budget := by
  have bound := length_add_rank_le run
  have first := rank_start_le c
  omega

theorem isFinal_of_advance (reached : c.Reaches c.start s) (stuck : c.advance s = none) :
    c.IsFinal s := by
  have all : ∀ action ∈ c.actions, c.step? s action = none := List.findSome?_eq_none_iff.mp stuck
  intro action
  cases action with
  | worker i =>
    by_cases inside : i < c.handles.length
    · exact all _ (by simp [actions, inside])
    · simp only [step?, List.getElem?_eq_none (Nat.le_of_not_lt inside)]
  | deliver i =>
    by_cases inside : i < c.handles.length
    · exact all _ (by simp [actions, inside])
    · rw [← length_workers reached] at inside
      simp only [step?, List.getElem?_eq_none (Nat.le_of_not_lt inside), Option.bind_none]
  | wake => exact all _ (by simp [actions])
  | finish => exact all _ (by simp [actions])

theorem schedule_isFinal (fuel : Nat) (reached : c.Reaches c.start s) (enough : s.rank ≤ fuel) :
    c.Reaches c.start (c.schedule fuel s) ∧ c.IsFinal (c.schedule fuel s) := by
  induction fuel generalizing s with
  | zero =>
    refine ⟨reached, ?_⟩
    intro action
    cases taken : c.step? s action with
    | none => exact taken
    | some t =>
      have less := rank_step (step_of_step? taken)
      omega
  | succ fuel ih =>
    unfold schedule
    split
    next t advanced =>
      obtain ⟨action, _, taken⟩ := List.exists_of_findSome?_eq_some advanced
      have less := rank_step (step_of_step? taken)
      exact ih (reached.step taken) (by omega)
    next stuck => exact ⟨reached, isFinal_of_advance reached stuck⟩

/-- The report of a collection is that of a run that went on as long as it could. -/
theorem collect_eq_report (parent : Text) (c : Collection ρ η) :
    ∃ s, c.Reaches c.start s ∧ c.IsFinal s ∧ c.collect parent = s.report parent := by
  obtain ⟨reached, final⟩ := schedule_isFinal c.budget (.refl c _) (rank_start_le c)
  exact ⟨_, reached, final, rfl⟩

end Deployments.Collection
