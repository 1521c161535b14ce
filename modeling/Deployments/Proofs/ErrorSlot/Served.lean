import Mathlib.Data.List.Pairwise
import Mathlib.Data.List.Nodup
import Deployments.ErrorSlot.Shared

/-!
Calls of a slot that are served one at a time. They look into an empty slot up to the first offer;
that offer stores its error, and all later calls meet this error.
-/

namespace Deployments.ErrorSlot

variable {ι ε : Type}

/-- A call that is served on its own. -/
structure Served (ε : Type) where
  call : Nat
  request : Request ε
  answer : Answer ε

/-- The answers are those of a slot that serves the requests one by one. -/
def Serves (slot : ErrorSlot ε) (order : List (Served ε)) : Prop :=
  order.map (·.answer) = answers slot (order.map (·.request))

section Sequential

variable {slot : ErrorSlot ε} {e : ε}

theorem after_append (slot : ErrorSlot ε) (first rest : List (Request ε)) :
    slot.after (first ++ rest) = (slot.after first).after rest := List.foldl_append

theorem answers_append (slot : ErrorSlot ε) (first rest : List (Request ε)) :
    slot.answers (first ++ rest) = slot.answers first ++ (slot.after first).answers rest := by
  induction first generalizing slot with
  | nil => rfl
  | cons request first ih =>
    simp only [List.cons_append, answers, ih]
    rfl

theorem serves_cons_iff {p : Served ε} {rest : List (Served ε)} :
    Serves slot (p :: rest) ↔
      p.answer = (slot.serve p.request).1 ∧ Serves (slot.serve p.request).2 rest := by
  simp only [Serves, List.map_cons, answers, List.cons.injEq]

theorem Serves.concat {order : List (Served ε)} (serves : Serves slot order) {p : Served ε}
    (last : p.answer = ((slot.after (order.map (·.request))).serve p.request).1) :
    Serves slot (order ++ [p]) := by
  unfold Serves at serves ⊢
  rw [List.map_append, List.map_append, answers_append, serves, List.map_singleton, last]
  rfl

theorem serve_held_snd (e : ε) (request : Request ε) :
    ((⟨some e⟩ : ErrorSlot ε).serve request).2 = ⟨some e⟩ := by
  cases request <;> rfl

theorem after_held (e : ε) (requests : List (Request ε)) :
    (⟨some e⟩ : ErrorSlot ε).after requests = ⟨some e⟩ := by
  induction requests with
  | nil => rfl
  | cons request rest ih =>
    rw [after, List.foldl_cons, serve_held_snd]
    exact ih

theorem after_looks (slot : ErrorSlot ε) {requests : List (Request ε)}
    (looks : ∀ request ∈ requests, request = .look) : slot.after requests = slot := by
  induction requests with
  | nil => rfl
  | cons request rest ih =>
    obtain ⟨head, tail⟩ := List.forall_mem_cons.mp looks
    subst head
    exact ih tail

theorem Serves.held {order : List (Served ε)} (serves : Serves ⟨some e⟩ order) :
    ∀ p ∈ order, p.answer = ((⟨some e⟩ : ErrorSlot ε).serve p.request).1 := by
  induction order with
  | nil => nofun
  | cons p rest ih =>
    obtain ⟨head, tail⟩ := serves_cons_iff.mp serves
    rw [serve_held_snd] at tail
    exact List.forall_mem_cons.mpr ⟨head, ih tail⟩

/-- Up to the first offer, calls look into an empty slot. That offer stores its error. -/
theorem Serves.split {order : List (Served ε)} (serves : Serves .empty order) :
    (∀ p ∈ order, p.request = .look ∧ p.answer = .held none) ∨
      ∃ looks k e rest, order = looks ++ ⟨k, .offer e, .stored true⟩ :: rest ∧
        (∀ p ∈ looks, p.request = .look ∧ p.answer = .held none) ∧ Serves ⟨some e⟩ rest := by
  induction order with
  | nil => exact .inl nofun
  | cons p rest ih =>
    obtain ⟨k, request, answer⟩ := p
    obtain ⟨head, tail⟩ := serves_cons_iff.mp serves
    simp only at head tail
    subst head
    cases request with
    | offer e => exact .inr ⟨[], k, e, rest, rfl, nofun, tail⟩
    | look =>
      rcases ih tail with looks | ⟨looks, j, e, late, rfl, early, tail⟩
      · exact .inl (List.forall_mem_cons.mpr ⟨⟨rfl, rfl⟩, looks⟩)
      · exact .inr ⟨_ :: looks, j, e, late, rfl, List.forall_mem_cons.mpr ⟨⟨rfl, rfl⟩, early⟩, tail⟩

/-- The error that a call has stored. -/
def Served.won? (p : Served ε) : Option (Nat × ε) :=
  match p.request, p.answer with
  | .offer e, .stored true => some (p.call, e)
  | _, _ => none

theorem Served.won?_eq_some {p : Served ε} {k : Nat} (stored : p.won? = some (k, e)) :
    p.call = k ∧ p.request = .offer e := by
  unfold Served.won? at stored
  split at stored
  next e request _ =>
    cases stored
    exact ⟨rfl, request⟩
  next => cases stored

/-- A call that leaves the slot as it is has stored nothing. -/
theorem won?_of_serve {p : Served ε} (serve : slot.serve p.request = (p.answer, slot)) :
    p.won? = none := by
  unfold Served.won?
  split
  next request answer =>
    obtain ⟨held⟩ := slot
    rw [request, answer] at serve
    cases held <;> cases serve
  next => rfl

/-- The call that has stored its error, and the error. -/
def winner (order : List (Served ε)) : Option (Nat × ε) := (order.filterMap Served.won?).head?

theorem winner_append (first rest : List (Served ε)) :
    winner (first ++ rest) = (winner first).or (winner rest) := by
  rw [winner, List.filterMap_append, List.head?_append]
  rfl

/-- What a row of calls that are served one by one settles. -/
structure Settles (order : List (Served ε)) (first : Option (Nat × ε)) : Prop where
  won : order.filterMap Served.won? = first.toList
  held : (after .empty (order.map (·.request))).held = first.map Prod.snd
  offer : ∀ p ∈ order, ∀ f, p.request = .offer f →
    ∃ k e, first = some (k, e) ∧ p.answer = .stored (decide (p.call = k))
  look : ∀ p ∈ order, p.request = .look →
    p.answer = .held none ∨ ∃ k e, first = some (k, e) ∧ p.answer = .held (some e)
  later : order.Pairwise fun p q => p.answer ≠ .held none → q.request = .look →
    ∃ k e, first = some (k, e) ∧ q.answer = .held (some e)

theorem settles_of_looks {order : List (Served ε)}
    (looks : ∀ p ∈ order, p.request = .look ∧ p.answer = .held none) : Settles order none where
  won := by
    refine List.filterMap_eq_nil_iff.mpr fun p member => ?_
    simp only [Served.won?, (looks p member).1]
  held := by
    rw [after_looks .empty (List.forall_mem_map.mpr fun p member => (looks p member).1)]
    rfl
  offer p member f request := by
    have look := (looks p member).1
    rw [request] at look
    cases look
  look p member _ := .inl (looks p member).2
  later := List.pairwise_of_forall_mem_list fun p member _ _ found =>
    absurd (looks p member).2 found

theorem Settles.unique {order : List (Served ε)} {first : Option (Nat × ε)}
    (settles : Settles order first) : winner order = first := by
  rw [winner, settles.won]
  cases first <;> rfl

theorem settles_of_offer {looks rest : List (Served ε)} {k : Nat}
    (early : ∀ p ∈ looks, p.request = .look ∧ p.answer = .held none)
    (late : ∀ p ∈ rest, p.answer = ((⟨some e⟩ : ErrorSlot ε).serve p.request).1)
    (other : ∀ p ∈ rest, p.call ≠ k) :
    Settles (looks ++ ⟨k, .offer e, .stored true⟩ :: rest) (some (k, e)) where
  won := by
    have none : rest.filterMap Served.won? = [] := by
      refine List.filterMap_eq_nil_iff.mpr fun p member => ?_
      have answer := late p member
      unfold Served.won?
      cases request : p.request <;> simp [answer, request, serve, offer]
    rw [List.filterMap_append, (settles_of_looks early).won, List.filterMap_cons, none]
    rfl
  held := by
    rw [List.map_append, after_append,
      after_looks .empty (List.forall_mem_map.mpr fun p member => (early p member).1)]
    exact congrArg ErrorSlot.held (after_held e _)
  offer p member f request := by
    refine ⟨k, e, rfl, ?_⟩
    rcases List.mem_append.mp member with member | member
    · have look := (early p member).1
      rw [request] at look
      cases look
    · rcases List.mem_cons.mp member with rfl | member
      · simp
      · simp [late p member, request, other p member, serve, offer]
  look p member request := by
    rcases List.mem_append.mp member with member | member
    · exact .inl (early p member).2
    · rcases List.mem_cons.mp member with rfl | member
      · cases request
      · refine .inr ⟨k, e, rfl, ?_⟩
        rw [late p member, request]
        rfl
  later := by
    have seen : ∀ q ∈ rest, q.request = .look →
        ∃ j f, some (k, e) = some (j, f) ∧ q.answer = .held (some f) := by
      intro q member request
      refine ⟨k, e, rfl, ?_⟩
      rw [late q member, request]
      rfl
    refine List.pairwise_append.mpr ⟨?_, List.pairwise_cons.mpr ⟨?_, ?_⟩, ?_⟩
    · exact List.pairwise_of_forall_mem_list fun p member _ _ found =>
        absurd (early p member).2 found
    · exact fun q member _ => seen q member
    · exact List.pairwise_of_forall_mem_list fun _ _ q member _ => seen q member
    · exact fun p member _ _ found => absurd (early p member).2 found

theorem Serves.settles {order : List (Served ε)} (serves : Serves .empty order)
    (distinct : (order.map (·.call)).Nodup) : Settles order (winner order) := by
  rcases serves.split with looks | ⟨looks, k, e, rest, rfl, early, tail⟩
  · have settles := settles_of_looks looks
    rwa [settles.unique]
  · rw [List.map_append, List.map_cons] at distinct
    have fresh := (List.nodup_cons.mp (List.nodup_append.mp distinct).2.1).1
    have settles := settles_of_offer early tail.held fun p member same =>
      fresh (List.mem_map.mpr ⟨p, member, same⟩)
    rwa [settles.unique]

end Sequential

end Deployments.ErrorSlot
