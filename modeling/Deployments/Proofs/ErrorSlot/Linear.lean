import Deployments.Proofs.ErrorSlot.Guarded
import Deployments.Proofs.ErrorSlot.Served

/-!
The calls of a shared slot are answered as if they were served one at a time, each at the moment in
which it finds its answer. A call that begins when another one has returned is served after it. So
the workers of a collection may be seen as offering an error in one step.
-/

namespace List

theorem pair_sublist_concat_iff {α : Type} {l : List α} {x y z : α} :
    [x, y] <+ l ++ [z] ↔ [x, y] <+ l ∨ x ∈ l ∧ y = z := by
  constructor
  · intro sublist
    obtain ⟨first, rest, split, inside, last⟩ := sublist_append_iff.mp sublist
    rcases sublist_singleton.mp last with rfl | rfl
    · rw [append_nil] at split
      exact .inl (split ▸ inside)
    · obtain ⟨rfl, same⟩ := append_inj' (show [x] ++ [y] = first ++ [z] from split) rfl
      cases same
      exact .inr ⟨singleton_sublist.mp inside, rfl⟩
  · rintro (inside | ⟨member, rfl⟩)
    · exact inside.trans (sublist_append_left _ _)
    · exact (singleton_sublist.mpr member).append (Sublist.refl [y])

end List

namespace Deployments.ErrorSlot

variable {ι ε : Type} {s t : Shared ι ε}

namespace Event

def stored? : Event ε → Option Nat
  | stored k => some k
  | _ => none

end Event

namespace Shared

def request? (s : Shared ι ε) (k : Nat) : Option (Request ε) := (s.calls[k]?).map (·.request)

/-- The calls that have stored their errors. -/
def stores (s : Shared ι ε) : List Nat := s.events.filterMap Event.stored?

/-- One call has returned when the other one begins. -/
def Precedes (s : Shared ι ε) (i j : Nat) : Prop := ∃ a, [.returned i a, .called j].Sublist s.events

/-- A call that has its answer, whether or not it has returned. -/
def HasServed (s : Shared ι ε) (p : Served ε) : Prop :=
  ∃ c, s.calls[p.call]? = some c ∧ c.request = p.request ∧ c.stage.answer? = some p.answer

/-- The order in which the calls of a reached state have found their answers. -/
structure Linear (s : Shared ι ε) (order : List (Served ε)) : Prop where
  distinct : (order.map (·.call)).Nodup
  serves : Serves .empty order
  slot : s.slot = after .empty (order.map (·.request))
  member : ∀ p, p ∈ order ↔ s.HasServed p
  returned : ∀ k a, .returned k a ∈ s.events → ∃ c, s.calls[k]? = some c ∧ c.stage = .returned a
  realTime : ∀ i j, s.Precedes i j → j ∈ order.map (·.call) → [i, j].Sublist (order.map (·.call))
  stores : s.stores = (order.filterMap Served.won?).map Prod.fst

theorem linear_start : Linear (start : Shared ι ε) [] where
  distinct := .nil
  serves := rfl
  slot := rfl
  member _ := ⟨nofun, fun ⟨_, found, _⟩ => nomatch found⟩
  returned := nofun
  realTime := nofun
  stores := rfl

section Steps

variable {order : List (Served ε)} {k : Nat} {c : Call ι ε} {stage : Stage ε}

theorem hasServed_set_iff (place : s.calls[k]? = some c)
    (calls : t.calls = s.calls.set k { c with stage }) (p : Served ε) :
    t.HasServed p ↔ (p.call ≠ k ∧ s.HasServed p) ∨
      (p.call = k ∧ c.request = p.request ∧ stage.answer? = some p.answer) := by
  unfold HasServed
  rw [calls]
  constructor
  · rintro ⟨d, found, request, answer⟩
    rcases getElem?_set_stage place found with ⟨same, rfl⟩ | ⟨other, found⟩
    · exact .inr ⟨same, request, answer⟩
    · exact .inl ⟨other, d, found, request, answer⟩
  · rintro (⟨other, d, found, request, answer⟩ | ⟨rfl, request, answer⟩)
    · exact ⟨d, by rw [List.getElem?_set_ne other.symm, found], request, answer⟩
    · refine ⟨{ c with stage }, ?_, request, answer⟩
      rw [List.getElem?_set_self (List.getElem?_eq_some_iff.mp place).1]

theorem hasServed_of_same (place : s.calls[k]? = some c)
    (calls : t.calls = s.calls.set k { c with stage }) (same : stage.answer? = c.stage.answer?)
    (p : Served ε) : t.HasServed p ↔ s.HasServed p := by
  rw [hasServed_set_iff place calls, same]
  rcases eq_or_ne p.call k with here | other
  · have own : s.HasServed p ↔ c.request = p.request ∧ c.stage.answer? = some p.answer := by
      unfold HasServed
      rw [here, place]
      simp
    simp [here, own]
  · simp [other]

/-- What the call has returned stays as it is, as such a call takes no step. -/
theorem returned_set (linear : Linear s order) (place : s.calls[k]? = some c)
    (calls : t.calls = s.calls.set k { c with stage }) (pending : c.stage.isReturned = false)
    {i : Nat} {a : Answer ε} (done : .returned i a ∈ s.events) :
    ∃ d, t.calls[i]? = some d ∧ d.stage = .returned a := by
  obtain ⟨d, found, about⟩ := linear.returned i a done
  have other : k ≠ i := by
    rintro rfl
    cases place.symm.trans found
    simp [about, Stage.isReturned] at pending
  exact ⟨d, by rw [calls, List.getElem?_set_ne other, found], about⟩

/-- A step that neither finds an answer nor tells of one. -/
theorem Linear.silent (linear : Linear s order) (place : s.calls[k]? = some c)
    (calls : t.calls = s.calls.set k { c with stage }) (same : stage.answer? = c.stage.answer?)
    (pending : c.stage.isReturned = false) (slot : t.slot = s.slot) (events : t.events = s.events) :
    Linear t order where
  distinct := linear.distinct
  serves := linear.serves
  slot := slot.trans linear.slot
  member p := (linear.member p).trans (hasServed_of_same place calls same p).symm
  returned i a done := returned_set linear place calls pending (events ▸ done)
  realTime i j before := linear.realTime i j (by rwa [Precedes, events] at before)
  stores := by
    rw [Shared.stores, events]
    exact linear.stores

theorem Linear.begin (linear : Linear s order) (thread : ι) (request : Request ε) :
    Linear (s.begin thread request) order where
  distinct := linear.distinct
  serves := linear.serves
  slot := linear.slot
  member p := by
    refine (linear.member p).trans ⟨?_, ?_⟩
    · rintro ⟨c, found, about⟩
      have inside := (List.getElem?_eq_some_iff.mp found).1
      exact ⟨c, (List.getElem?_append_left inside).trans found, about⟩
    · rintro ⟨c, found, about, answer⟩
      rcases getElem?_concat_call found with ⟨_, rfl⟩ | found
      · cases answer
      · exact ⟨c, found, about, answer⟩
  returned i a done := by
    rcases List.mem_append.mp done with done | new
    · obtain ⟨c, found, about⟩ := linear.returned i a done
      have inside := (List.getElem?_eq_some_iff.mp found).1
      exact ⟨c, (List.getElem?_append_left inside).trans found, about⟩
    · cases List.mem_singleton.mp new
  realTime i j before member := by
    obtain ⟨a, before⟩ := before
    rcases List.pair_sublist_concat_iff.mp before with before | ⟨_, same⟩
    · exact linear.realTime i j ⟨a, before⟩ member
    · -- The new call has no answer yet.
      obtain ⟨p, served, rfl⟩ := List.mem_map.mp member
      obtain ⟨c, found, _⟩ := (linear.member p).mp served
      have inside := (List.getElem?_eq_some_iff.mp found).1
      have new := Event.called.inj same
      omega
  stores := by
    rw [Shared.stores, Shared.begin, List.filterMap_append]
    exact (List.append_nil _).trans linear.stores

theorem Linear.back (linear : Linear s order) {a : Answer ε} (place : s.calls[k]? = some c)
    (returning : c.stage = .returning a)
    (calls : t.calls = s.calls.set k { c with stage := .returned a })
    (slot : t.slot = s.slot) (events : t.events = s.events ++ [.returned k a]) :
    Linear t order where
  distinct := linear.distinct
  serves := linear.serves
  slot := slot.trans linear.slot
  member p := by
    refine (linear.member p).trans (hasServed_of_same place calls ?_ p).symm
    rw [returning]
    rfl
  returned i b done := by
    rw [events] at done
    rcases List.mem_append.mp done with done | new
    · exact returned_set linear place calls (by rw [returning]; rfl) done
    · cases List.mem_singleton.mp new
      refine ⟨{ c with stage := .returned a }, ?_, rfl⟩
      rw [calls, List.getElem?_set_self (List.getElem?_eq_some_iff.mp place).1]
  realTime i j before := by
    obtain ⟨b, before⟩ := before
    rw [events] at before
    rcases List.pair_sublist_concat_iff.mp before with before | ⟨_, same⟩
    · exact linear.realTime i j ⟨b, before⟩
    · cases same
  stores := by
    rw [Shared.stores, events, List.filterMap_append]
    exact (List.append_nil _).trans linear.stores

/-- A call is served in the step in which it finds its answer. -/
theorem Linear.settle (linear : Linear s order) {p : Served ε} (place : s.calls[p.call]? = some c)
    (request : c.request = p.request) (unsettled : c.stage.answer? = none)
    (calls : t.calls = s.calls.set p.call { c with stage := .leaving p.answer })
    (serve : s.slot.serve p.request = (p.answer, t.slot))
    (events : t.events = s.events ++ p.won?.toList.map fun won => .stored won.1) :
    Linear t (order ++ [p]) where
  distinct := by
    rw [List.map_append, List.map_singleton]
    refine List.nodup_append.mpr ⟨linear.distinct, List.nodup_singleton _, ?_⟩
    rintro _ member _ new rfl
    obtain ⟨q, served, same⟩ := List.mem_map.mp member
    obtain ⟨d, found, _, answer⟩ := (linear.member q).mp served
    rw [same, List.mem_singleton.mp new, place] at found
    cases found
    rw [unsettled] at answer
    cases answer
  serves := linear.serves.concat (by rw [← linear.slot, serve])
  slot := by
    rw [List.map_append, after_append, ← linear.slot]
    exact (congrArg Prod.snd serve).symm
  member q := by
    rw [List.mem_append, linear.member q, List.mem_singleton, hasServed_set_iff place calls]
    constructor
    · rintro (served | rfl)
      · obtain ⟨d, found, about, answer⟩ := served
        refine .inl ⟨?_, d, found, about, answer⟩
        intro same
        rw [same, place] at found
        cases found
        rw [unsettled] at answer
        cases answer
      · exact .inr ⟨rfl, request, rfl⟩
    · rintro (⟨_, served⟩ | ⟨same, about, answer⟩)
      · exact .inl served
      · obtain ⟨j, r, b⟩ := q
        obtain ⟨k, r', a⟩ := p
        cases same
        cases request.symm.trans about
        cases answer
        exact .inr rfl
  returned i b done := by
    refine returned_set linear place calls ?_ ?_
    · cases stage : c.stage <;> simp_all [Stage.isReturned, Stage.answer?]
    · rw [events] at done
      simpa using done
  realTime i j before member := by
    have before : s.Precedes i j := by
      obtain ⟨b, before⟩ := before
      refine ⟨b, ?_⟩
      rw [events] at before
      cases won : p.won? with
      | none => simpa [won] using before
      | some w =>
        rw [won] at before
        rcases List.pair_sublist_concat_iff.mp before with before | ⟨_, same⟩
        · exact before
        · cases same
    rw [List.map_append, List.map_singleton] at member ⊢
    rcases List.mem_append.mp member with member | new
    · exact (linear.realTime i j before member).trans (List.sublist_append_left _ _)
    · obtain ⟨b, before⟩ := before
      obtain ⟨d, found, about⟩ := linear.returned i b (before.subset (.head _))
      have served := (linear.member ⟨i, d.request, b⟩).mpr ⟨d, found, rfl, by rw [about]; rfl⟩
      exact List.pair_sublist_concat_iff.mpr
        (.inr ⟨List.mem_map.mpr ⟨_, served, rfl⟩, List.mem_singleton.mp new⟩)
  stores := by
    have news : (p.won?.toList.map fun won => Event.stored won.1 (ε := ε)).filterMap Event.stored? =
        (p.won?.toList).map Prod.fst := by
      cases p.won? <;> rfl
    rw [Shared.stores, events, List.filterMap_append, news, List.filterMap_append, List.map_append]
    refine congrArg₂ (· ++ ·) linear.stores ?_
    cases won : p.won? <;> simp [won]

end Steps

theorem Linear.step {order : List (Served ε)} {owner : Option Nat} {action : Action ι ε}
    (linear : Linear s order) (guarded : Guarded s owner) (step : Step s action t) :
    ∃ more, Linear t (order ++ more) := by
  cases step with
  | call free =>
    refine ⟨[], ?_⟩
    rw [List.append_nil]
    exact linear.begin _ _
  | enter place stage | prepare place stage | leave place stage =>
    refine ⟨[], ?_⟩
    rw [List.append_nil]
    refine linear.silent place rfl ?_ ?_ rfl rfl <;> rw [stage] <;> rfl
  | back place stage =>
    refine ⟨[], ?_⟩
    rw [List.append_nil]
    exact linear.back place stage rfl rfl rfl
  | @answer k c a place stage answer =>
    refine ⟨_, linear.settle (p := ⟨k, c.request, a⟩) place rfl (by rw [stage]; rfl) rfl answer ?_⟩
    rw [won?_of_serve answer]
    exact (List.append_nil _).symm
  | @store k c e place stage =>
    obtain ⟨empty, request⟩ := guarded.storing k c e place stage
    refine ⟨_, linear.settle (p := ⟨k, .offer e, .stored true⟩) place request
      (by rw [stage]; rfl) rfl ?_ rfl⟩
    rw [empty]
    rfl

/-- What the calls of a shared slot have decided: which of them has stored its error, if one has. -/
structure Decides (s : Shared ι ε) (first : Option (Nat × ε)) : Prop where
  /-- No other call has stored an error. -/
  stores : s.stores = (first.map Prod.fst).toList
  slot : s.slot.held = first.map Prod.snd
  own : ∀ k e, first = some (k, e) → s.request? k = some (.offer e)
  offer : ∀ i f a, s.request? i = some (.offer f) → .returned i a ∈ s.events →
    ∃ k e, first = some (k, e) ∧ a = .stored (decide (i = k))
  look : ∀ i a, s.request? i = some .look → .returned i a ∈ s.events →
    a = .held none ∨ ∃ k e, first = some (k, e) ∧ a = .held (some e)
  /-- A look that begins after an offer has returned meets the error. -/
  afterOffer : ∀ i j f a, s.request? i = some (.offer f) → s.Precedes i j →
    s.request? j = some .look → .returned j a ∈ s.events →
    ∃ k e, first = some (k, e) ∧ a = .held (some e)
  /-- A look that begins after another one has met an error meets the same error. -/
  afterLook : ∀ i j e a, .returned i (.held (some e)) ∈ s.events → s.Precedes i j →
    s.request? j = some .look → .returned j a ∈ s.events → a = .held (some e)

/-- The calls could have been served one at a time in this order. -/
structure Explains (order : List (Served ε)) (s : Shared ι ε) : Prop where
  distinct : (order.map (·.call)).Nodup
  serves : Serves .empty order
  made : ∀ p ∈ order, s.request? p.call = some p.request
  returned : ∀ k a, .returned k a ∈ s.events → ∃ p ∈ order, p.call = k ∧ p.answer = a
  realTime : ∀ i j, s.Precedes i j → j ∈ order.map (·.call) → [i, j].Sublist (order.map (·.call))

section Orders

variable {order : List (Served ε)}

theorem Linear.explains (linear : Linear s order) : Explains order s where
  distinct := linear.distinct
  serves := linear.serves
  made p member := by
    obtain ⟨c, found, request, _⟩ := (linear.member p).mp member
    rw [request?, found, Option.map_some, request]
  returned k a done := by
    obtain ⟨c, found, stage⟩ := linear.returned k a done
    exact ⟨⟨k, c.request, a⟩, (linear.member _).mpr ⟨c, found, rfl, by rw [stage]; rfl⟩, rfl, rfl⟩
  realTime := linear.realTime

theorem Explains.served (explains : Explains order s) {k : Nat} {a : Answer ε} {r : Request ε}
    (request : s.request? k = some r) (done : .returned k a ∈ s.events) :
    (⟨k, r, a⟩ : Served ε) ∈ order := by
  obtain ⟨⟨_, r', _⟩, member, rfl, rfl⟩ := explains.returned k a done
  cases (explains.made _ member).symm.trans request
  exact member

/-- Of two calls that do not overlap, the first one is served before the other. -/
theorem Explains.pair (explains : Explains order s) {p q : Served ε} (first : p ∈ order)
    (second : q ∈ order) (before : s.Precedes p.call q.call) : [p, q].Sublist order := by
  have pair := explains.realTime p.call q.call before (List.mem_map.mpr ⟨q, second, rfl⟩)
  obtain ⟨found, sublist, same⟩ := List.sublist_map_iff.mp pair
  obtain ⟨p', rest, rfl, one, same⟩ := List.map_eq_cons_iff.mp same.symm
  obtain ⟨q', rest, rfl, two, none⟩ := List.map_eq_cons_iff.mp same
  cases List.map_eq_nil_iff.mp none
  have unique := List.inj_on_of_nodup_map explains.distinct
  cases unique (sublist.subset (.head _)) first one
  cases unique (sublist.subset (.tail _ (.head _))) second two
  exact sublist

theorem Linear.decides (linear : Linear s order) : s.Decides (winner order) := by
  have explains := linear.explains
  have settles := linear.serves.settles linear.distinct
  have later : ∀ i j r a b, s.request? i = some r → .returned i a ∈ s.events → a ≠ .held none →
      s.Precedes i j → s.request? j = some .look → .returned j b ∈ s.events →
      ∃ k e, winner order = some (k, e) ∧ b = .held (some e) := by
    intro i j r a b made done found before look met
    have first := explains.served made done
    have second := explains.served look met
    have pair := settles.later.sublist (explains.pair first second before)
    exact (List.pairwise_cons.mp pair).1 _ (.head _) found rfl
  constructor
  case stores => rw [linear.stores, settles.won, Option.toList_map]
  case slot => rw [linear.slot, settles.held]
  case own =>
    intro k e won
    have member : (k, e) ∈ order.filterMap Served.won? := by
      rw [settles.won, won]
      exact .head _
    obtain ⟨p, member, stored⟩ := List.mem_filterMap.mp member
    obtain ⟨call, request⟩ := Served.won?_eq_some stored
    rw [← call, ← request]
    exact explains.made p member
  case offer =>
    intro i f a request done
    exact settles.offer _ (explains.served request done) f rfl
  case look =>
    intro i a request done
    exact settles.look _ (explains.served request done) rfl
  case afterOffer =>
    intro i j f a request before look met
    obtain ⟨b, sublist⟩ := before
    have done := sublist.subset (.head _)
    obtain ⟨k, e, _, stored⟩ := settles.offer _ (explains.served request done) f rfl
    refine later i j _ b a request done ?_ ⟨b, sublist⟩ look met
    rintro rfl
    cases stored
  case afterLook =>
    intro i j e a done before look met
    obtain ⟨p, member, rfl, answer⟩ := explains.returned i _ done
    have made := explains.made p member
    obtain ⟨k, f, won, rfl⟩ := later _ j _ _ a made done (by simp) before look met
    have held : ∃ k f, winner order = some (k, f) ∧ p.answer = .held (some f) := by
      cases request : p.request with
      | offer f =>
        obtain ⟨k, f, _, stored⟩ := settles.offer p member f request
        rw [answer] at stored
        cases stored
      | look =>
        rcases settles.look p member request with nothing | held
        · rw [answer] at nothing
          cases nothing
        · exact held
    obtain ⟨k', f', won', same⟩ := held
    rw [won] at won'
    cases won'
    exact same.symm.trans answer

theorem linear_of_reaches [DecidableEq ι] (reached : s.Reaches t) {owner : Option Nat}
    (guarded : Guarded s owner) (linear : Linear s order) : ∃ more, Linear t (order ++ more) := by
  have both := reached.invariant
    (I := fun s => ∃ owner more, Guarded s owner ∧ Linear s (order ++ more))
    ⟨owner, [], guarded, by rwa [List.append_nil]⟩ ?_
  · obtain ⟨_, more, _, linear⟩ := both
    exact ⟨more, linear⟩
  · rintro s action t ⟨owner, more, guarded, linear⟩ step
    obtain ⟨next, kept⟩ := guarded.step step
    obtain ⟨new, linear⟩ := linear.step guarded step
    exact ⟨next, more ++ new, kept, by rwa [← List.append_assoc]⟩

end Orders

/-- Whatever the calls of any threads and however their steps come, the calls are answered as if
they were served one at a time in an order that keeps to the order of calls that do not overlap.
Once an offer has returned, the error that is stored, and the call that has stored it, are settled
for good. -/
theorem linearizable [DecidableEq ι] (reached : start.Reaches s) (later : s.Reaches t) :
    ∃ first, s.Decides first ∧ (first.isSome = true → t.Decides first) ∧
      ∃ order, Explains order s := by
  obtain ⟨order, linear⟩ := linear_of_reaches reached guarded_start linear_start
  obtain ⟨owner, guarded⟩ := guarded_of_reaches reached
  obtain ⟨more, after⟩ := linear_of_reaches later guarded linear
  refine ⟨winner ([] ++ order), linear.decides, fun decided => ?_, _, linear.explains⟩
  have decides := after.decides
  rw [winner_append] at decides
  rwa [Option.or_of_isSome decided] at decides

/-- Two threads offer an error each. The first offer has returned while the other one has the
lock. -/
def halfway : Shared Bool Nat where
  slot := ⟨some 7⟩
  isLocked := true
  calls := [⟨true, .offer 7, .returned (.stored true)⟩, ⟨false, .offer 8, .testing⟩]
  events := [.called 0, .called 1, .stored 0, .returned 0 (.stored true)]

theorem linearizable_halfway :
    ∃ t, start.Reaches halfway ∧ halfway.Reaches t ∧ .returned 2 (.held (some 7)) ∈ t.events ∧
      t.Decides (some (0, 7)) := by
  have first : start.Reaches halfway :=
    ⟨[.call true (.offer 7), .step 0, .call false (.offer 8), .step 0, .step 0, .step 0, .step 1,
      .step 0], rfl⟩
  have rest : halfway.Reaches ⟨⟨some 7⟩, false,
      [⟨true, .offer 7, .returned (.stored true)⟩, ⟨false, .offer 8, .returning (.stored false)⟩,
        ⟨true, .look, .returned (.held (some 7))⟩],
      halfway.events ++ [.called 2, .returned 2 (.held (some 7))]⟩ :=
    ⟨[.call true .look, .step 1, .step 1, .step 2, .step 2, .step 2, .step 2], rfl⟩
  refine ⟨_, first, rest, by simp, ?_⟩
  obtain ⟨_, now, later, _⟩ := linearizable first rest
  obtain ⟨k, e, rfl, _⟩ := now.offer 0 7 (.stored true) rfl (by simp [halfway])
  cases now.stores
  cases now.slot
  exact later rfl

end Shared

end Deployments.ErrorSlot
