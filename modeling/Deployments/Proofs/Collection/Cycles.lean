import Mathlib.Algebra.BigOperators.Fin
import Mathlib.Algebra.Order.BigOperators.Group.Finset
import Deployments.Fetcher
import Deployments.Proofs.Collection.Memory
import Deployments.Proofs.Collection.Progress

/-!
Cycles one after another do not reach into each other: each of them is where it would be had it been
run alone with its own steps, whatever the workers of other cycles do in between.
-/

namespace Deployments.Cycles

open Collection (Waiter)

variable {ρ η : Facet → Type} {plans : List (Plan ρ η)} {s t : State ρ η}

/-- The step that an action is for a cycle, if it is one of its own. -/
def own (k : Nat) : Action → Option Collection.Action
  | .begin => none
  | .step j action => if j = k then some action else none

/-- A cycle is where its plan alone comes with the cycle's own steps. -/
def Matches (s : State ρ η) (actions : List Collection.Action) (cycle : Cycle η) :
    Plan ρ η → Prop
  | .error e => actions = [] ∧ cycle.waiter = .returned (.error e)
  | .ok c => ∃ alone, c.runFrom? c.start actions = some alone ∧ Mirrors s c cycle alone

theorem Matches.add (separate : Separate s) {k : Nat} {actions : List Collection.Action}
    {cycle : Cycle η} {plan : Plan ρ η} (found : s.cycles[k]? = some cycle)
    (matched : Matches s actions cycle plan) (waiter : Waiter η) (handles : List (Handle ρ))
    (lines : List (Level × Text)) : Matches (s.add waiter handles lines) actions cycle plan := by
  cases plan with
  | error e => exact matched
  | ok c =>
    obtain ⟨alone, run, mirrors⟩ := matched
    exact ⟨alone, run, mirrors_add separate found mirrors⟩

theorem matches_begin (s : State ρ η) (plan : Plan ρ η) : ∃ waiter handles lines,
    s.begin plan = s.add waiter handles lines ∧ Matches (s.begin plan) []
      ⟨List.range' s.threads.length handles.length, s.slots.length, waiter⟩ plan := by
  cases plan with
  | error e => exact ⟨_, _, _, rfl, rfl, rfl⟩
  | ok c => exact ⟨_, _, _, rfl, c.start, rfl, mirrors_begin s c⟩

theorem Matches.frame {k : Nat} {c : Collection ρ η} {cycle : Cycle η}
    {alone : Collection.State ρ η} (turn : Turn s c k cycle alone t)
    (begun : s.cycles[k]? = some cycle) (separate : Separate s) {j : Nat} (different : k ≠ j)
    {actions : List Collection.Action} {other : Cycle η} {plan : Plan ρ η}
    (found : s.cycles[j]? = some other) (matched : Matches s actions other plan) :
    Matches t actions other plan := by
  cases plan with
  | error e => exact matched
  | ok d =>
    obtain ⟨state, run, mirrors⟩ := matched
    exact ⟨state, run, turn.frame begun separate different found mirrors⟩

/-- What holds after a row of steps. -/
structure Follows (plans : List (Plan ρ η)) (done : List Action) (s : State ρ η) : Prop where
  separate : Separate s
  begun : s.cycles.length ≤ plans.length
  silent : ∀ k, s.cycles.length ≤ k → done.filterMap (own k) = []
  alone : ∀ {k : Nat} {cycle : Cycle η}, s.cycles[k]? = some cycle →
    ∃ plan, plans[k]? = some plan ∧ Matches s (done.filterMap (own k)) cycle plan
  size : done.length = s.cycles.length + ∑ k : Fin plans.length, (done.filterMap (own k)).length

theorem own_append_begin (k : Nat) (done : List Action) :
    (done ++ [Action.begin]).filterMap (own k) = done.filterMap (own k) := by
  simp [own]

theorem own_append_step (k j : Nat) (done : List Action) (action : Collection.Action) :
    (done ++ [Action.step j action]).filterMap (own k) =
      done.filterMap (own k) ++ if j = k then [action] else [] := by
  by_cases same : j = k <;> simp [own, same]

theorem follows_start (plans : List (Plan ρ η)) : Follows plans [] start := by
  constructor
  case separate => constructor <;> simp [start]
  case begun => exact Nat.zero_le _
  case silent => exact fun _ _ => rfl
  case alone => simp [start]
  case size => simp [start]

namespace Follows

variable {done : List Action}

theorem begin {plan : Plan ρ η} (follows : Follows plans done s)
    (next : plans[s.cycles.length]? = some plan) :
    Follows plans (done ++ [.begin]) (s.begin plan) := by
  obtain ⟨waiter, handles, lines, added, new⟩ := matches_begin s plan
  rw [added] at new ⊢
  have length : (s.add waiter handles lines).cycles.length = s.cycles.length + 1 :=
    List.length_append
  constructor
  case separate => exact separate_add follows.separate
  case begun =>
    rw [length]
    exact (List.getElem?_eq_some_iff.mp next).1
  case silent =>
    intro k beyond
    rw [own_append_begin]
    exact follows.silent k (by omega)
  case alone =>
    intro k cycle found
    rw [own_append_begin]
    rcases cycles_add found with ⟨_, old⟩ | ⟨rfl, rfl⟩
    · obtain ⟨plan, planned, matched⟩ := follows.alone old
      exact ⟨plan, planned, matched.add follows.separate old _ _ _⟩
    · rw [follows.silent _ (Nat.le_refl _)]
      exact ⟨plan, next, new⟩
  case size =>
    simp only [own_append_begin, length, List.length_append, List.length_singleton, follows.size]
    omega

theorem turn {k : Nat} {c : Collection ρ η} {cycle : Cycle η} {alone alone' : Collection.State ρ η}
    {action : Collection.Action} (follows : Follows plans done s)
    (planned : plans[k]? = some (.ok c)) (begun : s.cycles[k]? = some cycle)
    (run : c.runFrom? c.start (done.filterMap (own k)) = some alone)
    (taken : c.step? alone action = some alone') (turn : Turn s c k cycle alone' t) :
    Follows plans (done ++ [.step k action]) t := by
  have inside : k < s.cycles.length := (List.getElem?_eq_some_iff.mp begun).1
  have length : t.cycles.length = s.cycles.length := by
    rw [turn.cycles, List.length_set]
  constructor
  case separate => exact turn.separate begun follows.separate
  case begun => exact length ▸ follows.begun
  case silent =>
    intro j beyond
    have different : k ≠ j := by omega
    rw [own_append_step, if_neg different, List.append_nil]
    exact follows.silent j (by omega)
  case alone =>
    intro j other found
    rw [own_append_step]
    by_cases same : k = j
    · subst same
      rw [turn.cycles, List.getElem?_set_self inside] at found
      cases found
      refine ⟨_, planned, alone', ?_, turn.mirrors⟩
      simp [Collection.runFrom?_append, run, Collection.runFrom?, taken]
    · rw [turn.cycles, List.getElem?_set_ne same] at found
      rw [if_neg same, List.append_nil]
      obtain ⟨plan, planned, matched⟩ := follows.alone found
      exact ⟨plan, planned, matched.frame turn begun follows.separate same found⟩
  case size =>
    have bound : k < plans.length := (List.getElem?_eq_some_iff.mp planned).1
    have one : ∑ j : Fin plans.length, (if k = j.val then [action] else []).length = 1 := by
      rw [Finset.sum_eq_single (⟨k, bound⟩ : Fin plans.length)]
      · simp
      · intro j _ different
        have other : k ≠ j.val := fun same => different (Fin.ext same.symm)
        simp [other]
      · simp
    have before := follows.size
    simp only [own_append_step, List.length_append, List.length_singleton, Finset.sum_add_distrib,
      one, length]
    omega

/-- What the collection run alone does with a step that is taken, or not, for its cycle. -/
theorem rel {k : Nat} {c : Collection ρ η} {cycle : Cycle η} (follows : Follows plans done s)
    (planned : plans[k]? = some (.ok c)) (begun : s.cycles[k]? = some cycle) :
    ∃ alone, c.runFrom? c.start (done.filterMap (own k)) = some alone ∧
      Mirrors s c cycle alone ∧ ∀ action,
      Option.Rel (fun t alone' => Turn s c k cycle alone' t) (stepOf? c s k cycle action)
        (c.step? alone action) := by
  obtain ⟨plan, same, matched⟩ := follows.alone begun
  cases planned.symm.trans same
  obtain ⟨alone, run, mirrors⟩ := matched
  exact ⟨alone, run, mirrors, rel_stepOf? mirrors begun (follows.separate.nodup begun)⟩

theorem step {action : Action} (follows : Follows plans done s)
    (taken : step? plans s action = some t) : Follows plans (done ++ [action]) t := by
  cases action with
  | begin =>
    simp only [step?] at taken
    split at taken
    next =>
      obtain ⟨plan, next, rfl⟩ := Option.map_eq_some_iff.mp taken
      exact follows.begin next
    next => cases taken
  | step k action =>
    simp only [step?] at taken
    split at taken
    next c cycle planned begun =>
      obtain ⟨alone, run, _, rel⟩ := follows.rel planned begun
      have both := rel action
      rw [taken] at both
      cases moved : c.step? alone action with
      | none =>
        rw [moved] at both
        cases both
      | some alone' =>
        rw [moved] at both
        cases both with
        | some turn => exact follows.turn planned begun run moved turn
    next => cases taken

theorem run {rest : List Action} (follows : Follows plans done s)
    (taken : runFrom? plans s rest = some t) : Follows plans (done ++ rest) t := by
  induction rest generalizing done s with
  | nil =>
    cases taken
    rwa [List.append_nil]
  | cons action rest ih =>
    obtain ⟨u, first, taken⟩ := Option.bind_eq_some_iff.mp taken
    rw [List.append_cons]
    exact ih (follows.step first) taken

end Follows

theorem follows_of_run {actions : List Action} (run : runFrom? plans start actions = some s) :
    Follows plans actions s := by
  have follows := (follows_start plans).run run
  rwa [List.nil_append] at follows

theorem State.outcome?_of_begun {k : Nat} {cycle : Cycle η} (begun : s.cycles[k]? = some cycle) :
    s.outcome? k = cycle.outcome? := by
  rw [State.outcome?, begun, Option.bind_some]

theorem Mirrors.outcome? {c : Collection ρ η} {cycle : Cycle η} {alone : Collection.State ρ η}
    (mirrors : Mirrors s c cycle alone) : cycle.outcome? = alone.outcome? := by
  have same := mirrors.waiter
  unfold Cycle.outcome? Collection.State.outcome?
  generalize cycle.waiter = waiter at same
  cases same
  cases alone.waiter <;> rfl

theorem Follows.outcome? {done : List Action} (follows : Follows plans done s) {k : Nat}
    (begun : k < s.cycles.length) :
    (∃ e, plans[k]? = some (.error e) ∧ s.outcome? k = some (.error e)) ∨
      ∃ c alone, plans[k]? = some (.ok c) ∧
        c.runFrom? c.start (done.filterMap (own k)) = some alone ∧
        s.outcome? k = alone.outcome? := by
  have found := List.getElem?_eq_getElem begun
  obtain ⟨plan, planned, matched⟩ := follows.alone found
  rw [State.outcome?_of_begun found]
  cases plan with
  | error e => exact .inl ⟨e, planned, by rw [Cycle.outcome?, matched.2]⟩
  | ok c =>
    obtain ⟨alone, run, mirrors⟩ := matched
    exact .inr ⟨c, alone, planned, run, mirrors.outcome?⟩

/-- The outcome of a cycle whose deployments can all be fetched. -/
theorem Follows.snapshots {done : List Action} (follows : Follows plans done s) {k : Nat}
    {c : Collection ρ η} (planned : plans[k]? = some (.ok c))
    (fetched : ∀ h ∈ c.handles, ∃ snapshot, h.fetch c.map = .ok snapshot)
    {outcome : Except Failure (List (Snapshot η))} (ended : s.outcome? k = some outcome) :
    ∃ snapshots, outcome = .ok snapshots ∧ c.handles.map (·.fetch c.map) = snapshots.map .ok := by
  obtain ⟨cycle, begun, _⟩ := Option.bind_eq_some_iff.mp ended
  rcases follows.outcome? (List.getElem?_eq_some_iff.mp begun).1 with
    ⟨e, other, _⟩ | ⟨d, alone, other, run, same⟩
  · cases planned.symm.trans other
  · cases planned.symm.trans other
    exact Collection.snapshots_of_outcome ⟨_, run⟩ fetched (same.symm.trans ended)

/-- Every run that goes on as long as it can ends with an outcome. -/
def Returns (c : Collection ρ η) : Prop :=
  ∀ s, c.Reaches c.start s → c.IsFinal s → ∃ outcome, s.outcome? = some outcome

theorem returns_of_free {c : Collection ρ η} (free : c.gates = .free) : Returns c :=
  fun _ reached final => (Collection.done_and_returned_of_free free reached final).2

/-- No plan takes more steps, its beginning included. -/
def budget : Plan ρ η → Nat
  | .error _ => 1
  | .ok c => 1 + c.budget

theorem Follows.length_le {done : List Action} (follows : Follows plans done s) :
    done.length ≤ (plans.map budget).sum := by
  have each : ∀ k : Fin plans.length,
      1 + (done.filterMap (own k)).length ≤ budget plans[k.val] := by
    intro k
    have planned : plans[k.val]? = some plans[k.val] := List.getElem?_eq_getElem k.isLt
    by_cases begun : k.val < s.cycles.length
    · obtain ⟨plan, same, matched⟩ := follows.alone (List.getElem?_eq_getElem begun)
      cases planned.symm.trans same
      revert matched
      cases plans[k.val] with
      | error e =>
        rintro ⟨none, _⟩
        simp [none, budget]
      | ok c =>
        rintro ⟨alone, run, _⟩
        exact Nat.add_le_add_left (Collection.length_le_budget run) 1
    · rw [follows.silent k (Nat.le_of_not_lt begun)]
      cases plans[k.val] <;> simp [budget]
  have total := Finset.sum_le_sum fun k (_ : k ∈ Finset.univ) => each k
  rw [Finset.sum_add_distrib, Fin.sum_univ_fun_getElem] at total
  have size := follows.size
  have begun := follows.begun
  simp only [Finset.sum_const, Finset.card_univ, Fintype.card_fin, smul_eq_mul, mul_one] at total
  omega

theorem Follows.returned {done : List Action} (follows : Follows plans done s)
    (returns : ∀ c, .ok c ∈ plans → Returns c) (final : IsFinal plans s) :
    ∀ k < plans.length, ∃ outcome, s.outcome? k = some outcome := by
  -- a cycle that has begun is stuck only where its collection is, and that has returned
  have begun : ∀ k < s.cycles.length, ∃ outcome, s.outcome? k = some outcome := by
    intro k begun
    rcases follows.outcome? begun with ⟨e, _, ended⟩ | ⟨c, _, planned, _, _⟩
    · exact ⟨_, ended⟩
    · have found := List.getElem?_eq_getElem begun
      obtain ⟨alone, run, mirrors, rel⟩ := follows.rel planned found
      have stuck : c.IsFinal alone := by
        intro action
        have here := final (.step k action)
        simp only [step?, planned, found] at here
        have both := rel action
        rw [here] at both
        cases moved : c.step? alone action with
        | none => rfl
        | some t =>
          rw [moved] at both
          cases both
      rw [State.outcome?_of_begun found, mirrors.outcome?]
      exact returns c (List.mem_of_getElem? planned) alone ⟨_, run⟩ stuck
  have all : s.cycles.length = plans.length := by
    apply Nat.le_antisymm follows.begun
    apply Nat.le_of_not_lt
    intro more
    have ended : s.cycles.all (·.outcome?.isSome) = true := by
      rw [List.all_eq_true]
      intro cycle member
      obtain ⟨k, found⟩ := List.mem_iff_getElem?.mp member
      obtain ⟨outcome, ended⟩ := begun k (List.getElem?_eq_some_iff.mp found).1
      rw [← State.outcome?_of_begun found, ended]
      rfl
    have next := final .begin
    simp [step?, ended, more] at next
  exact all ▸ begun

/-- Cycles that follow one another on the same collector, in whatever order their workers and the
loop take their steps. Each of them is where it would be had it been alone and taken its own steps,
so two cycles whose deployments answer alike and can all be fetched bring equal snapshots. No run
goes on for ever, and where it ends every cycle has ended if none can wait for ever on its own. -/
theorem outcome_of_cycles (plans : List (Plan ρ η)) (actions : List Action) (s : State ρ η)
    (run : runFrom? plans start actions = some s) :
    (∀ k < s.cycles.length,
        (∃ e, plans[k]? = some (.error e) ∧ s.outcome? k = some (.error e)) ∨
        ∃ c alone, plans[k]? = some (.ok c) ∧
          c.runFrom? c.start (actions.filterMap (own k)) = some alone ∧
          s.outcome? k = alone.outcome?) ∧
      (∀ j k c d, plans[j]? = some (.ok c) → plans[k]? = some (.ok d) →
        (∀ h ∈ c.handles, ∃ snapshot, h.fetch c.map = .ok snapshot) →
        c.handles.map (·.fetch c.map) = d.handles.map (·.fetch d.map) →
        ∀ first later, s.outcome? j = some first → s.outcome? k = some later →
          ∃ snapshots, first = .ok snapshots ∧ later = .ok snapshots) ∧
      actions.length ≤ (plans.map budget).sum ∧
      ((∀ c, .ok c ∈ plans → Returns c) → IsFinal plans s →
        ∀ k < plans.length, ∃ outcome, s.outcome? k = some outcome) := by
  have follows := follows_of_run run
  refine ⟨fun k => follows.outcome?, ?_, follows.length_le, follows.returned⟩
  intro j k c d planned planned' fetched alike first later ended ended'
  have fetched' : ∀ h ∈ d.handles, ∃ snapshot, h.fetch d.map = .ok snapshot := by
    intro h member
    have same : h.fetch d.map ∈ c.handles.map (·.fetch c.map) :=
      alike ▸ List.mem_map_of_mem member
    obtain ⟨g, member, same⟩ := List.mem_map.mp same
    exact same ▸ fetched g member
  obtain ⟨snapshots, rfl, all⟩ := follows.snapshots planned fetched ended
  obtain ⟨others, rfl, all'⟩ := follows.snapshots planned' fetched' ended'
  have same : snapshots.map Except.ok = others.map (Except.ok (ε := Failure)) :=
    all.symm.trans (alike.trans all')
  rw [List.map_injective_iff.mpr (fun _ _ => Except.ok.inj) same]
  exact ⟨others, rfl, rfl⟩

/-- While the second cycle runs, the other worker of the failed first one goes on and fails. -/
theorem outcome_of_late_failure :
    let gone : Raised := ⟨"OSError", [.text "gone"]⟩
    let find (name : Text) : Except Raised (Handle Facet.Record) := .error (.notFound name)
    let directors : List (Director Facet.Record) :=
      [⟨.ok [.failing "left" .errands gone, .failing "right" .stemcells gone], find⟩,
        ⟨.ok [.quiet "right"], find⟩, ⟨.ok [.quiet "right"], find⟩]
    let plans := directors.map (Fetcher.plan "" Facet.entryOf (fun _ => .free) [])
    let ending (k : Nat) : List Action := [.step k (.deliver 0), .step k .wake, .step k .finish]
    let actions : List Action := .begin :: List.replicate 6 (.step 0 (.worker 0)) ++ ending 0 ++
      .begin :: (List.replicate 14 [.step 0 (.worker 1), .step 1 (.worker 0)]).flatten ++
      [.step 0 (.deliver 1), .step 1 (.worker 0)] ++ ending 1 ++
      .begin :: List.replicate 15 (.step 2 (.worker 0)) ++ ending 2
    ∃ s, runFrom? plans start actions = some s ∧
      ∃ snapshots, s.outcome? 1 = some (.ok snapshots) ∧ s.outcome? 2 = some (.ok snapshots) := by
  intro gone find directors plans ending actions
  have last : (runFrom? plans start actions).map (fun s => [1, 2].all (s.outcome? · |>.isSome)) =
      some true := by
    decide
  obtain ⟨s, run, both⟩ := Option.map_eq_some_iff.mp last
  simp only [List.all_cons, List.all_nil, Bool.and_true, Bool.and_eq_true,
    Option.isSome_iff_exists] at both
  obtain ⟨⟨first, ended⟩, later, ended'⟩ := both
  have fetched : ∀ h ∈ [Handle.quiet (ρ := Facet.Record) "right"],
      ∃ snapshot, h.fetch Facet.entryOf = .ok snapshot := by
    intro h member
    exact h.fetch_of_readable Facet.entryOf (by revert h member; decide)
  obtain ⟨snapshots, rfl, rfl⟩ := (outcome_of_cycles plans actions s run).2.1 1 2 _ _ rfl rfl
    fetched rfl first later ended ended'
  exact ⟨s, run, snapshots, ended, ended'⟩

end Deployments.Cycles

namespace Deployments.Fetcher

/-- A fetch brings what its cycle brings when it is run alone. -/
theorem outcome_fetch {ρ η : Facet → Type} (parent : Text) (map : Mapping ρ η)
    (gates : List (Handle ρ) → Gates) (names : List Value) (director : Director ρ) :
    (fetch parent map gates names director).outcome =
      match plan parent map gates names director with
      | .error e => some (.error e)
      | .ok c => (c.collect parent).outcome := by
  rw [fetch, plan]
  cases (Selection.select parent names director).outcome <;> rfl

end Deployments.Fetcher
