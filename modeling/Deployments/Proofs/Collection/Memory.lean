import Mathlib.Data.List.Lattice
import Mathlib.Data.List.Nodup
import Deployments.Collection.Cycles
import Deployments.Proofs.Collection.Reachable

/-!
The memory that cycles share. Every cycle has places of its own there, at which lies the state of a
collection that is run alone. A step writes to no places but those of the cycle for which it is
taken, so it is a step of that cycle's collection and leaves all others as they were.
-/

namespace Deployments.Cycles

open Collection (Waiter Worker)

variable {ρ η : Facet → Type} {s t : State ρ η}

/-! ### Places in memory -/

section Memory

variable {α : Type} {memory : List α} {places : List Nat}

theorem values_append (inside : ∀ place ∈ places, place < memory.length) (more : List α) :
    places.map ((memory ++ more)[·]?) = places.map (memory[·]?) := by
  apply List.map_congr_left
  intro place member
  exact List.getElem?_append_left (inside place member)

theorem values_new (memory more : List α) :
    (List.range' memory.length more.length).map ((memory ++ more)[·]?) = more.map some := by
  apply List.ext_getElem?
  intro i
  by_cases inside : i < more.length
  · simp [inside]
  · have beyond : more.length ≤ i := Nat.le_of_not_lt inside
    simp [beyond]

theorem values_set (nodup : places.Nodup) {i place : Nat} (found : places[i]? = some place)
    (inside : place < memory.length) (x : α) :
    places.map ((memory.set place x)[·]?) = (places.map (memory[·]?)).set i (some x) := by
  obtain ⟨bound, here⟩ := List.getElem?_eq_some_iff.mp found
  apply List.ext_getElem?
  intro j
  by_cases same : i = j
  · subst same
    simp [bound, here, inside]
  · rw [List.getElem?_set_ne same, List.getElem?_map, List.getElem?_map]
    cases other : places[j]? with
    | none => rfl
    | some there =>
      have different : place ≠ there := by
        rintro rfl
        obtain ⟨_, there⟩ := List.getElem?_eq_some_iff.mp other
        exact same (nodup.getElem_inj_iff.mp (here.trans there.symm))
      simp [List.getElem?_set_ne different]

end Memory

/-! ### A cycle and the collection run alone -/

/-- At the places of a cycle lies the state of a collection that is run alone. -/
structure Mirrors (s : State ρ η) (c : Collection ρ η) (cycle : Cycle η)
    (alone : Collection.State ρ η) : Prop where
  size : alone.workers.length = c.handles.length
  threads : s.threadsAt cycle.threads =
    List.zipWith (fun h w => some ⟨h, cycle.slot, w⟩) c.handles alone.workers
  slot : s.slots[cycle.slot]? = some alone.slot
  waiter : cycle.waiter = alone.waiter

namespace Mirrors

variable {c : Collection ρ η} {cycle : Cycle η} {alone : Collection.State ρ η}

theorem seen_eq (mirrors : Mirrors s c cycle alone) :
    s.seen cycle = { alone with lines := s.lines } := by
  have workers : ∀ (handles : List (Handle ρ)) (workers : List (Worker ρ η)),
      workers.length = handles.length →
      (List.zipWith (fun h w => some (Thread.mk h cycle.slot w)) handles workers).filterMap
        (·.map (·.worker)) = workers := by
    intro handles
    induction handles with
    | nil =>
      intro workers size
      rw [List.length_eq_zero_iff.mp size]
      rfl
    | cons h rest ih =>
      rintro (_ | ⟨w, workers⟩) size
      · cases size
      · simp [ih workers (Nat.succ.inj size)]
  rw [State.seen, mirrors.threads, workers _ _ mirrors.size, mirrors.slot, mirrors.waiter]
  rfl

/-- At each place of a cycle lies the thread for one of its deployments. -/
theorem thread (mirrors : Mirrors s c cycle alone) (i : Nat) :
    (cycle.threads[i]? = none ∧ c.handles[i]? = none ∧ alone.workers[i]? = none) ∨
      ∃ place h w, cycle.threads[i]? = some place ∧ c.handles[i]? = some h ∧
        alone.workers[i]? = some w ∧ s.threads[place]? = some ⟨h, cycle.slot, w⟩ := by
  have same := congrArg (·[i]?) mirrors.threads
  have size := mirrors.size
  simp only [State.threadsAt, List.getElem?_map, List.getElem?_zipWith] at same
  cases handle : c.handles[i]? with
  | none =>
    have beyond : alone.workers[i]? = none := by
      rw [List.getElem?_eq_none_iff] at handle ⊢
      omega
    cases found : cycle.threads[i]? with
    | none => exact .inl ⟨rfl, rfl, beyond⟩
    | some place =>
      rw [found, handle] at same
      cases same
  | some h =>
    cases found : alone.workers[i]? with
    | none =>
      have inside := (List.getElem?_eq_some_iff.mp handle).1
      rw [List.getElem?_eq_none_iff] at found
      omega
    | some w =>
      rw [handle, found] at same
      cases there : cycle.threads[i]? with
      | none =>
        rw [there] at same
        cases same
      | some place =>
        rw [there] at same
        exact .inr ⟨place, h, w, rfl, rfl, rfl, Option.some.inj same⟩

theorem congr (mirrors : Mirrors s c cycle alone)
    (threads : t.threadsAt cycle.threads = s.threadsAt cycle.threads)
    (slot : t.slots[cycle.slot]? = s.slots[cycle.slot]?) : Mirrors t c cycle alone :=
  ⟨mirrors.size, threads.trans mirrors.threads, slot.trans mirrors.slot, mirrors.waiter⟩

/-- Writing to a thread of a cycle is writing to a worker of the collection. -/
theorem put (mirrors : Mirrors s c cycle alone) (nodup : cycle.threads.Nodup) {i place : Nat}
    {h : Handle ρ} {w : Worker ρ η} (found : cycle.threads[i]? = some place)
    (handle : c.handles[i]? = some h) (here : s.threads[place]? = some ⟨h, cycle.slot, w⟩)
    (w' : Worker ρ η) :
    Mirrors (s.put place ⟨h, cycle.slot, w'⟩) c cycle (alone.put i w') := by
  have inside : place < s.threads.length := (List.getElem?_eq_some_iff.mp here).1
  constructor
  case size => simp [Collection.State.put, mirrors.size]
  case threads =>
    have written := values_set nodup found inside (Thread.mk h cycle.slot w')
    have before := mirrors.threads
    rw [State.threadsAt] at before
    rw [State.threadsAt, State.put, written, before]
    apply List.ext_getElem?
    intro j
    by_cases same : i = j
    · subst same
      obtain ⟨bound, value⟩ := List.getElem?_eq_some_iff.mp handle
      simp [Collection.State.put, mirrors.size, bound, value]
    · simp [Collection.State.put, List.getElem?_zipWith, List.getElem?_set_ne same]
  case slot => exact mirrors.slot
  case waiter => exact mirrors.waiter

end Mirrors

/-- What a step does that a cycle takes as the collection run alone takes its own: it writes to no
places but those of the cycle. -/
structure Turn (s : State ρ η) (c : Collection ρ η) (k : Nat) (cycle : Cycle η)
    (alone : Collection.State ρ η) (t : State ρ η) : Prop where
  cycles : t.cycles = s.cycles.set k { cycle with waiter := alone.waiter }
  mirrors : Mirrors t c { cycle with waiter := alone.waiter } alone
  size : t.threads.length = s.threads.length ∧ t.slots.length = s.slots.length
  threads : ∀ place ∉ cycle.threads, t.threads[place]? = s.threads[place]?
  slots : ∀ slot ≠ cycle.slot, t.slots[slot]? = s.slots[slot]?

section Steps

variable {c : Collection ρ η} {k : Nat} {cycle : Cycle η} {alone : Collection.State ρ η}

theorem turn_put (mirrors : Mirrors s c cycle alone) (begun : s.cycles[k]? = some cycle)
    (nodup : cycle.threads.Nodup) {i place : Nat} {h : Handle ρ} {w : Worker ρ η}
    (found : cycle.threads[i]? = some place) (handle : c.handles[i]? = some h)
    (here : s.threads[place]? = some ⟨h, cycle.slot, w⟩) (w' : Worker ρ η) :
    Turn s c k cycle (alone.put i w') (s.put place ⟨h, cycle.slot, w'⟩) := by
  have waiter : (alone.put i w').waiter = cycle.waiter := mirrors.waiter.symm
  constructor
  case cycles =>
    obtain ⟨inside, same⟩ := List.getElem?_eq_some_iff.mp begun
    rw [waiter, ← same, List.set_getElem_self inside]
    rfl
  case mirrors =>
    rw [waiter]
    exact mirrors.put nodup found handle here w'
  case size => exact ⟨List.length_set, rfl⟩
  case threads =>
    intro other outside
    have different : place ≠ other := by
      rintro rfl
      exact outside (List.mem_of_getElem? found)
    exact List.getElem?_set_ne different
  case slots => exact fun _ _ => rfl

theorem turn_after (mirrors : Mirrors s c cycle alone) (begun : s.cycles[k]? = some cycle)
    (nodup : cycle.threads.Nodup) {i place : Nat} {h : Handle ρ} {w : Worker ρ η}
    (found : cycle.threads[i]? = some place) (handle : c.handles[i]? = some h)
    (here : s.threads[place]? = some ⟨h, cycle.slot, w⟩) (m : Collection.Move ρ η) :
    Turn s c k cycle (alone.after i m) (s.after place ⟨h, cycle.slot, w⟩ m) := by
  have put := turn_put mirrors begun nodup found handle here m.worker
  have inside : cycle.slot < s.slots.length := (List.getElem?_eq_some_iff.mp mirrors.slot).1
  constructor
  case cycles => exact put.cycles
  case mirrors =>
    refine ⟨put.mirrors.size, put.mirrors.threads, ?_, put.mirrors.waiter⟩
    simp [State.after, Collection.State.after, inside]
  case size => exact ⟨put.size.1, List.length_set⟩
  case threads => exact put.threads
  case slots => exact fun other different => List.getElem?_set_ne (Ne.symm different)

theorem turn_follow (mirrors : Mirrors s c cycle alone) {t alone' : Collection.State ρ η}
    (workers : alone'.workers = alone.workers) (slot : alone'.slot = alone.slot)
    (waiter : t.waiter = alone'.waiter) : Turn s c k cycle alone' (s.follow k cycle t) := by
  constructor
  case cycles =>
    rw [← waiter]
    rfl
  case mirrors =>
    refine ⟨workers ▸ mirrors.size, ?_, slot ▸ mirrors.slot, rfl⟩
    rw [workers]
    exact mirrors.threads
  case size => exact ⟨rfl, rfl⟩
  case threads => exact fun _ _ => rfl
  case slots => exact fun _ _ => rfl

/-- A step can be taken for a cycle exactly if the collection run alone can take it. -/
theorem rel_stepOf? (mirrors : Mirrors s c cycle alone) (begun : s.cycles[k]? = some cycle)
    (nodup : cycle.threads.Nodup) (action : Collection.Action) :
    Option.Rel (fun t alone' => Turn s c k cycle alone' t) (stepOf? c s k cycle action)
      (c.step? alone action) := by
  have seen := mirrors.seen_eq
  cases action with
  | worker i =>
    rcases mirrors.thread i with ⟨found, handle, none⟩ | ⟨place, h, w, found, handle, there, here⟩
    · simp only [stepOf?, Collection.step?, found, handle, none, Option.bind_none]
      exact .none
    · simp only [stepOf?, Collection.step?, found, handle, there, here, mirrors.slot,
        Option.bind_some, seen]
      change Option.Rel _ ((w.move? c.map h (c.hasPlace alone i) (c.isOpen alone i)
        alone.slot).map _) _
      cases w.move? c.map h (c.hasPlace alone i) (c.isOpen alone i) alone.slot with
      | none => exact .none
      | some m => exact .some (turn_after mirrors begun nodup found handle here m)
  | deliver i =>
    rcases mirrors.thread i with ⟨found, handle, none⟩ | ⟨place, h, w, found, handle, there, here⟩
    · simp only [stepOf?, Collection.step?, found, none, Option.bind_none]
      exact .none
    · simp only [stepOf?, Collection.step?, found, there, here, Option.bind_some]
      cases w.deliver? with
      | none => exact .none
      | some w' => exact .some (turn_put mirrors begun nodup found handle here w')
  | wake =>
    simp only [stepOf?, Collection.step?, seen, Collection.State.allDelivered]
    cases alone.waiter with
    | waiting =>
      by_cases told : (alone.workers.any (·.hasFailed) ||
          alone.workers.all (·.stage.result?.isSome)) = true
      · simp only [told, if_true]
        exact .some (turn_follow mirrors rfl rfl rfl)
      · simp only [told]
        exact .none
    | awake => exact .none
    | returned => exact .none
  | finish =>
    simp only [stepOf?, Collection.step?, seen]
    cases alone.waiter with
    | awake => exact .some (turn_follow mirrors rfl rfl rfl)
    | waiting => exact .none
    | returned => exact .none

end Steps

/-! ### The places of different cycles -/

structure Separate (s : State ρ η) : Prop where
  nodup : ∀ {k : Nat} {cycle : Cycle η}, s.cycles[k]? = some cycle → cycle.threads.Nodup
  inside : ∀ {k : Nat} {cycle : Cycle η}, s.cycles[k]? = some cycle →
    (∀ place ∈ cycle.threads, place < s.threads.length) ∧ cycle.slot < s.slots.length
  apart : ∀ {j k : Nat} {a b : Cycle η}, s.cycles[j]? = some a → s.cycles[k]? = some b → j ≠ k →
    a.threads.Disjoint b.threads ∧ a.slot ≠ b.slot

namespace Turn

variable {c : Collection ρ η} {k : Nat} {cycle : Cycle η} {alone : Collection.State ρ η}

theorem origin (turn : Turn s c k cycle alone t) (begun : s.cycles[k]? = some cycle) {j : Nat}
    {a : Cycle η} (found : t.cycles[j]? = some a) :
    ∃ b, s.cycles[j]? = some b ∧ b.threads = a.threads ∧ b.slot = a.slot := by
  rw [turn.cycles] at found
  by_cases same : k = j
  · subst same
    have inside : k < s.cycles.length := (List.getElem?_eq_some_iff.mp begun).1
    rw [List.getElem?_set_self inside] at found
    cases found
    exact ⟨cycle, begun, rfl, rfl⟩
  · rw [List.getElem?_set_ne same] at found
    exact ⟨a, found, rfl, rfl⟩

theorem separate (turn : Turn s c k cycle alone t) (begun : s.cycles[k]? = some cycle)
    (separate : Separate s) : Separate t := by
  constructor
  case nodup =>
    intro j a found
    obtain ⟨b, before, threads, _⟩ := turn.origin begun found
    exact threads ▸ separate.nodup before
  case inside =>
    intro j a found
    obtain ⟨b, before, threads, slot⟩ := turn.origin begun found
    rw [← threads, ← slot, turn.size.1, turn.size.2]
    exact separate.inside before
  case apart =>
    intro i j a a' found found' different
    obtain ⟨b, before, threads, slot⟩ := turn.origin begun found
    obtain ⟨b', before', threads', slot'⟩ := turn.origin begun found'
    rw [← threads, ← slot, ← threads', ← slot']
    exact separate.apart before before' different

/-- What another cycle finds at its places stays as it was. -/
theorem frame (turn : Turn s c k cycle alone t) (begun : s.cycles[k]? = some cycle)
    (separate : Separate s) {j : Nat} (different : k ≠ j) {d : Collection ρ η} {other : Cycle η}
    {state : Collection.State ρ η} (found : s.cycles[j]? = some other)
    (mirrors : Mirrors s d other state) : Mirrors t d other state := by
  obtain ⟨threads, slot⟩ := separate.apart begun found different
  apply mirrors.congr
  · apply List.map_congr_left
    intro place member
    exact turn.threads place fun own => threads own member
  · exact turn.slots other.slot (Ne.symm slot)

end Turn

section Add

variable {waiter : Waiter η} {handles : List (Handle ρ)} {lines : List (Level × Text)}

theorem cycles_add {k : Nat} {cycle : Cycle η}
    (found : (s.add waiter handles lines).cycles[k]? = some cycle) :
    (k < s.cycles.length ∧ s.cycles[k]? = some cycle) ∨
      (k = s.cycles.length ∧
        cycle = ⟨List.range' s.threads.length handles.length, s.slots.length, waiter⟩) := by
  rw [State.add] at found
  by_cases before : k < s.cycles.length
  · rw [List.getElem?_append_left before] at found
    exact .inl ⟨before, found⟩
  · rw [List.getElem?_append_right (Nat.le_of_not_lt before)] at found
    obtain ⟨last, same⟩ := List.getElem?_eq_some_iff.mp found
    have first : k = s.cycles.length := by
      rw [List.length_singleton] at last
      omega
    subst first
    simp only [Nat.sub_self, List.getElem_cons_zero] at same
    exact .inr ⟨rfl, same.symm⟩

theorem separate_add (separate : Separate s) : Separate (s.add waiter handles lines) := by
  -- a new place lies behind the places of all cycles before
  have new : ∀ {k : Nat} {old : Cycle η}, s.cycles[k]? = some old →
      old.threads.Disjoint (List.range' s.threads.length handles.length) ∧
        old.slot ≠ s.slots.length := by
    intro k old found
    obtain ⟨threads, slot⟩ := separate.inside found
    refine ⟨?_, Nat.ne_of_lt slot⟩
    intro place member behind
    have below := threads place member
    rw [List.mem_range'_1] at behind
    omega
  constructor
  case nodup =>
    intro k cycle found
    rcases cycles_add found with ⟨_, old⟩ | ⟨_, rfl⟩
    · exact separate.nodup old
    · exact List.nodup_range'
  case inside =>
    intro k cycle found
    simp only [State.add, List.length_append, List.length_map, List.length_singleton]
    rcases cycles_add found with ⟨_, old⟩ | ⟨_, rfl⟩
    · obtain ⟨threads, slot⟩ := separate.inside old
      exact ⟨fun place member => Nat.lt_add_right _ (threads place member), by omega⟩
    · refine ⟨?_, Nat.lt_succ_self _⟩
      intro place member
      rw [List.mem_range'_1] at member
      exact member.2
  case apart =>
    intro j k a b found found' different
    rcases cycles_add found with ⟨_, old⟩ | ⟨rfl, rfl⟩ <;>
      rcases cycles_add found' with ⟨_, old'⟩ | ⟨rfl, rfl⟩
    · exact separate.apart old old' different
    · exact new old
    · exact ⟨(new old').1.symm, (new old').2.symm⟩
    · exact (different rfl).elim

theorem mirrors_add (separate : Separate s) {k : Nat} {c : Collection ρ η} {cycle : Cycle η}
    {alone : Collection.State ρ η} (found : s.cycles[k]? = some cycle)
    (mirrors : Mirrors s c cycle alone) : Mirrors (s.add waiter handles lines) c cycle alone := by
  obtain ⟨threads, slot⟩ := separate.inside found
  apply mirrors.congr
  · exact values_append threads _
  · exact List.getElem?_append_left slot

/-- A new cycle finds what a collection finds when it begins. -/
theorem mirrors_begin (s : State ρ η) (c : Collection ρ η) :
    Mirrors (s.begin (.ok c)) c
      ⟨List.range' s.threads.length c.handles.length, s.slots.length, c.start.waiter⟩ c.start := by
  constructor
  case size => exact List.length_map _
  case threads =>
    have new := values_new s.threads (c.handles.map (Thread.start (η := η) s.slots.length))
    rw [List.length_map] at new
    rw [State.threadsAt, State.begin, State.add, new, Collection.start, List.zipWith_map_right,
      List.zipWith_self, List.map_map]
    rfl
  case slot => simp [State.begin, State.add, Collection.start]
  case waiter => rfl

end Add

end Deployments.Cycles
