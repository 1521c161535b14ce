import Mathlib.Logic.Relation
import Deployments.Collection.Step

/-!
What calls wait for. A call ends only after the calls for which it waits have started, so the waits
order the starts and ends of calls, together with the order in which a worker makes its calls.
-/

namespace Deployments

abbrev Call := Nat × Facet

inductive CallMoment where
  | start (call : Call)
  | finish (call : Call)

namespace CallMoment

def call : CallMoment → Call
  | start call | finish call => call

def place : CallMoment → Nat
  | start call => 2 * Facet.all.idxOf call.2
  | finish call => 2 * Facet.all.idxOf call.2 + 1

end CallMoment

theorem Facet.idxOf_lt {facet later : Facet} (order : [facet, later].Sublist Facet.all) :
    Facet.all.idxOf facet < Facet.all.idxOf later := by
  revert order
  cases facet <;> cases later <;> decide

namespace Gates

/-- One call has to come before another, for so many workers: it is an earlier one of the same
worker, or the other waits for its start. -/
inductive Before (g : Gates) (workers : Nat) : Call → Call → Prop where
  | next (i : Nat) {facet later : Facet} (order : [facet, later].Sublist Facet.all) :
    Before g workers (i, facet) (i, later)
  | awaited {i : Nat} {facet : Facet} {call : Call} (inside : i < workers)
    (awaited : call ∈ g.awaited i facet) : Before g workers call (i, facet)

/-- One moment has to come before another: a call starts before it ends, ends before the next one
of its worker starts, and ends after the calls for which it waits have started. -/
inductive Precedes (g : Gates) (workers : Nat) : CallMoment → CallMoment → Prop where
  | call (call : Call) : Precedes g workers (.start call) (.finish call)
  | next (i : Nat) {facet later : Facet} (order : [facet, later].Sublist Facet.all) :
    Precedes g workers (.finish (i, facet)) (.start (i, later))
  | awaited {i : Nat} {facet : Facet} {call : Call} (inside : i < workers)
    (awaited : call ∈ g.awaited i facet) :
    Precedes g workers (.start call) (.finish (i, facet))

/-- No call is held until the collection has returned, and calls wait only for calls of workers that
there are. -/
structure Released (g : Gates) (workers : Nat) : Prop where
  released : ∀ i facet, g.held i facet = false
  inside : ∀ i facet call, i < workers → call ∈ g.awaited i facet → call.1 < workers

structure CallsOrderly (g : Gates) (workers : Nat) : Prop extends g.Released workers where
  acyclic : ∀ call, ¬ Relation.TransGen (g.Before workers) call call

/-- No moment has to come before itself. Two calls may wait for the starts of each other. -/
structure Orderly (g : Gates) (workers : Nat) : Prop extends g.Released workers where
  acyclic : ∀ moment, ¬ Relation.TransGen (g.Precedes workers) moment moment

/-- Between moments of different calls there is a path of calls. -/
theorem before_of_precedes {g : Gates} {workers : Nat} {first last : CallMoment}
    (path : Relation.TransGen (g.Precedes workers) first last) :
    (∃ call, first = .start call ∧ last = .finish call) ∨
      Relation.TransGen (g.Before workers) first.call last.call := by
  induction path with
  | single step =>
    cases step with
    | call call => exact .inl ⟨call, rfl, rfl⟩
    | next i order => exact .inr (.single (.next i order))
    | awaited inside awaited => exact .inr (.single (.awaited inside awaited))
  | tail _ step ih =>
    right
    rcases ih with ⟨call, rfl, rfl⟩ | path
    · cases step with
      | next i order => exact .single (.next i order)
    · cases step with
      | call => exact path
      | next i order => exact path.tail (.next i order)
      | awaited inside awaited => exact path.tail (.awaited inside awaited)

theorem CallsOrderly.orderly {g : Gates} {workers : Nat} (calls : g.CallsOrderly workers) :
    g.Orderly workers where
  toReleased := calls.toReleased
  acyclic moment cycle := by
    rcases before_of_precedes cycle with ⟨call, start, finish⟩ | cycle
    · rw [start] at finish
      cases finish
    · exact calls.acyclic moment.call cycle

/-- Every call waits until all workers have started their calls for the same facet. -/
def barrier (workers : Nat) : Gates :=
  ⟨fun _ _ => false, fun _ facet => (List.range workers).map (·, facet)⟩

theorem barrier_place_lt {workers : Nat} {first later : CallMoment}
    (before : (barrier workers).Precedes workers first later) : first.place < later.place := by
  cases before with
  | call call => exact Nat.lt_succ_self _
  | next i order =>
    have order := Facet.idxOf_lt order
    simp only [CallMoment.place]
    omega
  | @awaited i facet call inside awaited =>
    obtain ⟨j, _, same⟩ := List.mem_map.mp awaited
    cases same
    exact Nat.lt_succ_self _

theorem orderly_barrier (workers : Nat) : (barrier workers).Orderly workers where
  released _ _ := rfl
  inside i facet call _ awaited := by
    obtain ⟨j, member, same⟩ := List.mem_map.mp awaited
    cases same
    exact List.mem_range.mp member
  acyclic moment cycle := by
    have rising : ∀ later, Relation.TransGen ((barrier workers).Precedes workers) moment later →
        moment.place < later.place := by
      intro later path
      induction path with
      | single before => exact barrier_place_lt before
      | tail _ before ih => exact Nat.lt_trans ih (barrier_place_lt before)
    exact Nat.lt_irrefl _ (rising moment cycle)

end Gates

end Deployments
