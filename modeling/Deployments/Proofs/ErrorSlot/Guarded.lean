import Mathlib.Data.List.Basic
import Deployments.ErrorSlot.Shared

/-!
Who has the lock of a shared slot. Only the call that has it looks into the slot and stores its
error there, so the slot is still empty when it stores. Some call can always go on, until all of
them have returned.
-/

namespace Deployments.ErrorSlot

variable {ι ε : Type} {s t : Shared ι ε}

namespace Stage

def holdsLock : Stage ε → Bool
  | testing | storing _ | leaving _ => true
  | _ => false

/-- The answer of a call, once it is settled. -/
def answer? : Stage ε → Option (Answer ε)
  | leaving a | returning a | returned a => some a
  | _ => none

end Stage

namespace Shared

inductive Step (s : Shared ι ε) : Action ι ε → Shared ι ε → Prop where
  | call {thread : ι} {request : Request ε}
    (free : ∀ c ∈ s.calls, c.thread = thread → c.stage.isReturned = true) :
    Step s (.call thread request) (s.begin thread request)
  | enter {k : Nat} {c : Call ι ε} (place : s.calls[k]? = some c) (stage : c.stage = .entering)
    (free : s.isLocked = false) : Step s (.step k) { s.put k c .testing with isLocked := true }
  | prepare {k : Nat} {c : Call ι ε} {e : ε} (place : s.calls[k]? = some c)
    (stage : c.stage = .testing) (request : c.request = .offer e) (empty : s.slot = .empty) :
    Step s (.step k) (s.put k c (.storing e))
  | answer {k : Nat} {c : Call ι ε} {a : Answer ε} (place : s.calls[k]? = some c)
    (stage : c.stage = .testing) (answer : s.slot.serve c.request = (a, s.slot)) :
    Step s (.step k) (s.put k c (.leaving a))
  | store {k : Nat} {c : Call ι ε} {e : ε} (place : s.calls[k]? = some c)
    (stage : c.stage = .storing e) :
    Step s (.step k) { s.put k c (.leaving (.stored true)) with
      slot := ⟨some e⟩
      events := s.events ++ [.stored k] }
  | leave {k : Nat} {c : Call ι ε} {a : Answer ε} (place : s.calls[k]? = some c)
    (stage : c.stage = .leaving a) :
    Step s (.step k) { s.put k c (.returning a) with isLocked := false }
  | back {k : Nat} {c : Call ι ε} {a : Answer ε} (place : s.calls[k]? = some c)
    (stage : c.stage = .returning a) :
    Step s (.step k) { s.put k c (.returned a) with events := s.events ++ [.returned k a] }

theorem step_test {k : Nat} {c : Call ι ε} (place : s.calls[k]? = some c)
    (stage : c.stage = .testing) :
    Step s (.step k) (s.put k c (.ofTest s.slot c.request)) := by
  cases request : c.request with
  | look =>
    refine .answer place stage ?_
    rw [request]
    rfl
  | offer e =>
    cases held : s.slot.held with
    | none =>
      have empty : s.slot = .empty := congrArg ErrorSlot.mk held
      simp only [Stage.ofTest, held, Option.isSome_none, Bool.false_eq_true, if_false]
      exact .prepare place stage request empty
    | some first =>
      have full : s.slot = ⟨some first⟩ := congrArg ErrorSlot.mk held
      simp only [Stage.ofTest, held, Option.isSome_some, if_true]
      refine .answer place stage ?_
      rw [request, full]
      rfl

theorem step_of_step? [DecidableEq ι] {action : Action ι ε} (taken : s.step? action = some t) :
    Step s action t := by
  unfold step? at taken
  split at taken
  next thread request =>
    split at taken
    next free =>
      cases taken
      refine .call fun c member same => ?_
      have kept := List.all_eq_true.mp free c member
      simpa [same] using kept
    next => cases taken
  next k =>
    obtain ⟨c, place, taken⟩ := Option.bind_eq_some_iff.mp taken
    unfold advance? at taken
    split at taken
    next stage =>
      split at taken
      next => cases taken
      next free =>
        cases taken
        exact .enter place stage (Bool.eq_false_iff.mpr free)
    next stage =>
      cases taken
      exact step_test place stage
    next e stage =>
      cases taken
      exact .store place stage
    next a stage =>
      cases taken
      exact .leave place stage
    next a stage =>
      cases taken
      exact .back place stage
    next => cases taken

theorem isSome_advance? {k : Nat} {c : Call ι ε} (pending : c.stage.isReturned = false)
    (free : c.stage = .entering → s.isLocked = false) : (s.advance? k c).isSome = true := by
  unfold advance?
  split <;> try rfl
  next stage => simp [free stage]
  next stage => simp [stage, Stage.isReturned] at pending

section Runs

variable [DecidableEq ι]

/-- Some steps lead from one state to the other. -/
def Reaches (s t : Shared ι ε) : Prop := ∃ actions, s.runFrom? actions = some t

/-- What every step keeps is kept by a whole run. -/
theorem Reaches.invariant {I : Shared ι ε → Prop} (reached : s.Reaches t) (first : I s)
    (next : ∀ s action t, I s → Step s action t → I t) : I t := by
  obtain ⟨actions, run⟩ := reached
  induction actions generalizing s with
  | nil =>
    cases run
    exact first
  | cons action actions ih =>
    obtain ⟨u, taken, run⟩ := Option.bind_eq_some_iff.mp run
    exact ih (next s action u first (step_of_step? taken)) run

end Runs

/-- The owner of the lock is the only call between taking it and giving it back. -/
structure Guarded (s : Shared ι ε) (owner : Option Nat) : Prop where
  isLocked : s.isLocked = owner.isSome
  known : ∀ k, owner = some k → k < s.calls.length
  holds : ∀ (k : Nat) (c : Call ι ε), s.calls[k]? = some c →
    (c.stage.holdsLock = true ↔ owner = some k)
  storing : ∀ (k : Nat) (c : Call ι ε) (e : ε), s.calls[k]? = some c → c.stage = .storing e →
    s.slot = .empty ∧ c.request = .offer e

theorem guarded_start : Guarded (start : Shared ι ε) none where
  isLocked := rfl
  known := nofun
  holds := nofun
  storing := nofun

theorem getElem?_set_stage {calls : List (Call ι ε)} {k i : Nat} {c d : Call ι ε} {stage : Stage ε}
    (place : calls[k]? = some c) (found : (calls.set k { c with stage })[i]? = some d) :
    (i = k ∧ d = { c with stage }) ∨ (i ≠ k ∧ calls[i]? = some d) := by
  rcases eq_or_ne i k with same | other
  · subst same
    rw [List.getElem?_set_self (List.getElem?_eq_some_iff.mp place).1] at found
    cases found
    exact .inl ⟨rfl, rfl⟩
  · rw [List.getElem?_set_ne other.symm] at found
    exact .inr ⟨other, found⟩

theorem getElem?_concat_call {calls : List (Call ι ε)} {c d : Call ι ε} {i : Nat}
    (found : (calls ++ [c])[i]? = some d) :
    (i = calls.length ∧ d = c) ∨ calls[i]? = some d := by
  rcases Nat.lt_or_ge i calls.length with old | new
  · rw [List.getElem?_append_left old] at found
    exact .inr found
  · rw [List.getElem?_append_right new] at found
    obtain ⟨zero, same⟩ := List.getElem?_eq_some_iff.mp found
    simp only [List.length_singleton, Nat.lt_one_iff] at zero
    simp only [zero, List.getElem_cons_zero] at same
    exact .inl ⟨by omega, same.symm⟩

section Steps

variable {owner next : Option Nat} {k : Nat} {c : Call ι ε}

theorem Guarded.begin (guarded : Guarded s owner) (thread : ι) (request : Request ε) :
    Guarded (s.begin thread request) owner where
  isLocked := guarded.isLocked
  known k owns := by
    have known := guarded.known k owns
    simp only [Shared.begin, List.length_append, List.length_singleton]
    omega
  holds k c found := by
    rcases getElem?_concat_call found with ⟨rfl, rfl⟩ | found
    · refine ⟨nofun, fun owns => ?_⟩
      exact absurd (guarded.known _ owns) (Nat.lt_irrefl _)
    · exact guarded.holds k c found
  storing k c e found stage := by
    rcases getElem?_concat_call found with ⟨rfl, rfl⟩ | found
    · cases stage
    · exact guarded.storing k c e found stage

/-- A call takes a step. The slot may change only if the call has the lock, as then no other call
is about to store its error. -/
theorem Guarded.move (guarded : Guarded s owner) (place : s.calls[k]? = some c) {stage : Stage ε}
    (calls : t.calls = s.calls.set k { c with stage }) (isLocked : t.isLocked = next.isSome)
    (own : stage.holdsLock = true ↔ next = some k)
    (others : ∀ i, i ≠ k → (next = some i ↔ owner = some i))
    (slot : t.slot = s.slot ∨ c.stage.holdsLock = true)
    (storing : ∀ e, stage = .storing e → t.slot = .empty ∧ c.request = .offer e) :
    Guarded t next where
  isLocked := isLocked
  known i owns := by
    rw [calls, List.length_set]
    rcases eq_or_ne i k with rfl | other
    · exact (List.getElem?_eq_some_iff.mp place).1
    · exact guarded.known i ((others i other).mp owns)
  holds i d found := by
    rw [calls] at found
    rcases getElem?_set_stage place found with ⟨rfl, rfl⟩ | ⟨other, found⟩
    · exact own
    · exact (guarded.holds i d found).trans (others i other).symm
  storing i d e found about := by
    rw [calls] at found
    rcases getElem?_set_stage place found with ⟨rfl, rfl⟩ | ⟨other, found⟩
    · exact storing e about
    · obtain ⟨empty, request⟩ := guarded.storing i d e found about
      rcases slot with kept | holds
      · exact ⟨kept.trans empty, request⟩
      · have mine := (guarded.holds k c place).mp holds
        have its := (guarded.holds i d found).mp (by rw [about]; rfl)
        exact absurd (Option.some.inj (its.symm.trans mine)) other

theorem Guarded.step {action : Action ι ε} (guarded : Guarded s owner) (step : Step s action t) :
    ∃ next, Guarded t next := by
  cases step with
  | call free => exact ⟨owner, guarded.begin _ _⟩
  | @enter k c place stage free =>
    have nobody : owner = none := by
      rw [guarded.isLocked] at free
      exact Option.isNone_iff_eq_none.mp (by simpa using free)
    refine ⟨some k, guarded.move place rfl rfl ⟨fun _ => rfl, fun _ => rfl⟩ ?_ (.inl rfl) nofun⟩
    intro i other
    simp [nobody, other.symm]
  | prepare place stage request empty =>
    have mine := (guarded.holds _ _ place).mp (by rw [stage]; rfl)
    refine ⟨owner, guarded.move place rfl guarded.isLocked ⟨fun _ => mine, fun _ => rfl⟩
      (fun _ _ => .rfl) (.inl rfl) fun e about => ?_⟩
    cases about
    exact ⟨empty, request⟩
  | answer place stage _ =>
    have mine := (guarded.holds _ _ place).mp (by rw [stage]; rfl)
    exact ⟨owner, guarded.move place rfl guarded.isLocked ⟨fun _ => mine, fun _ => rfl⟩
      (fun _ _ => .rfl) (.inl rfl) nofun⟩
  | @store k c e place stage =>
    have holds : c.stage.holdsLock = true := by rw [stage]; rfl
    have mine := (guarded.holds _ _ place).mp holds
    exact ⟨owner, guarded.move place rfl guarded.isLocked ⟨fun _ => mine, fun _ => rfl⟩
      (fun _ _ => .rfl) (.inr holds) nofun⟩
  | @leave k c a place stage =>
    have mine := (guarded.holds _ _ place).mp (by rw [stage]; rfl)
    refine ⟨none, guarded.move place rfl rfl ⟨nofun, nofun⟩ (fun i other => ?_) (.inl rfl) nofun⟩
    simp [mine, other.symm]
  | back place stage =>
    have other := guarded.holds _ _ place
    rw [stage] at other
    exact ⟨owner, guarded.move place rfl guarded.isLocked other (fun _ _ => .rfl) (.inl rfl) nofun⟩

end Steps

section Runs

variable [DecidableEq ι]

theorem guarded_of_reaches (reached : start.Reaches s) : ∃ owner, Guarded s owner := by
  refine reached.invariant (I := fun s => ∃ owner, Guarded s owner) ⟨none, guarded_start⟩ ?_
  rintro s action t ⟨owner, guarded⟩ step
  exact guarded.step step

/-- As long as a call has not returned, some call can take a step: the calls do not block one
another. -/
theorem exists_step (reached : start.Reaches s) {c : Call ι ε} (member : c ∈ s.calls)
    (pending : c.stage.isReturned = false) : ∃ k t, s.step? (.step k) = some t := by
  obtain ⟨owner, guarded⟩ := guarded_of_reaches reached
  cases owner with
  | some k =>
    obtain ⟨d, place⟩ : ∃ d, s.calls[k]? = some d :=
      ⟨_, List.getElem?_eq_getElem (guarded.known k rfl)⟩
    have holds := (guarded.holds k d place).mpr rfl
    have taken : (s.advance? k d).isSome = true := by
      refine isSome_advance? ?_ fun stage => ?_
      · cases stage : d.stage <;> simp_all [Stage.holdsLock, Stage.isReturned]
      · simp [stage, Stage.holdsLock] at holds
    obtain ⟨t, taken⟩ := Option.isSome_iff_exists.mp taken
    exact ⟨k, t, by simp [step?, place, taken]⟩
  | none =>
    obtain ⟨k, place⟩ := List.mem_iff_getElem?.mp member
    obtain ⟨t, taken⟩ := Option.isSome_iff_exists.mp
      (isSome_advance? (k := k) pending fun _ => guarded.isLocked)
    exact ⟨k, t, by simp [step?, place, taken]⟩

end Runs

end Shared

end Deployments.ErrorSlot
