import Mathlib.Data.List.Infix
import Mathlib.Data.List.Pairwise
import Deployments.Log.Registry

/-!
The names above a name. Each stands in front of one of its dots and of a dot of those that are
nearer. They are all such names, unless there are two dots in a row.
-/

namespace Deployments.Registry

/-- A name stands in front of a dot of another one. -/
def Fronts (front name : Text) : Prop := front.toList ++ [.char '.'] <+: name.toList

instance (front name : Text) : Decidable (Fronts front name) :=
  inferInstanceAs (Decidable (_ <+: _))

namespace Fronts

variable {front name : Text}

theorem prefix_ (fronts : Fronts front name) : front.toList <+: name.toList :=
  (List.prefix_append _ _).trans fronts

theorem length_lt (fronts : Fronts front name) : front.toList.length < name.toList.length := by
  have bound := fronts.length_le
  rw [List.length_append, List.length_singleton] at bound
  omega

theorem ne (fronts : Fronts front name) : front ≠ name := by
  rintro rfl
  exact Nat.lt_irrefl _ fronts.length_lt

theorem startsWith (fronts : Fronts front name) : name.startsWith front = true :=
  Text.startsWith_iff.mpr fronts.prefix_

theorem not_startsWith (fronts : Fronts front name) : front.startsWith name = false := by
  rw [← Bool.not_eq_true, Text.startsWith_iff]
  intro begins
  have bound := begins.length_le
  have shorter := fronts.length_lt
  omega

theorem trans {other : Text} (fronts : Fronts front name) (fronts' : Fronts name other) :
    Fronts front other :=
  List.IsPrefix.trans fronts fronts'.prefix_

end Fronts

theorem prefix_of_mem_frontsFrom {front : Text} {ps : List Point}
    (member : front ∈ frontsFrom ps) : front.toList ++ [.char '.'] <+: ps.reverse := by
  fun_induction frontsFrom ps with
  | case1 p ps ih =>
    rcases List.mem_cons.mp member with rfl | later
    · simp
    · refine (ih later).trans ?_
      simp only [List.reverse_cons, List.append_assoc]
      exact List.prefix_append _ _
  | case2 p ps _ ih =>
    rw [List.reverse_cons]
    exact (ih member).trans (List.prefix_append _ _)
  | case3 => cases member

theorem fronts_of_mem_namesAbove {front name : Text} (member : front ∈ namesAbove name) :
    Fronts front name := by
  have found := prefix_of_mem_frontsFrom member
  rwa [List.reverse_reverse] at found

/-- The names above a name are above one another. -/
theorem pairwise_namesAbove (name : Text) :
    (namesAbove name).Pairwise fun near far => Fronts far near := by
  unfold namesAbove
  fun_induction frontsFrom name.toList.reverse with
  | case1 p ps ih =>
    refine List.pairwise_cons.mpr ⟨fun far member => ?_, ih⟩
    have begins := prefix_of_mem_frontsFrom member
    rw [Fronts, Text.toList_ofList, List.reverse_cons]
    exact begins.trans (List.prefix_append _ _)
  | case2 p ps _ ih => exact ih
  | case3 => exact .nil

theorem fronts_or_fronts {name front other : Text} (member : front ∈ namesAbove name)
    (member' : other ∈ namesAbove name) (apart : front ≠ other) :
    Fronts front other ∨ Fronts other front := by
  have sorted : (namesAbove name).Pairwise fun near far => Fronts near far ∨ Fronts far near :=
    (pairwise_namesAbove name).imp Or.inr
  have : Std.Symm fun near far => Fronts near far ∨ Fronts far near := ⟨fun _ _ => Or.symm⟩
  exact sorted.forall member member' apart

section Sorted

variable {test : Text → Bool} {above : List Text}
  (sorted : above.Pairwise fun near far => Fronts far near)

include sorted

/-- What comes before the first failing item passes, and so does all that is nearer. -/
theorem mem_takeWhile_iff {front : Text} :
    front ∈ above.takeWhile test ↔
      front ∈ above ∧ test front = true ∧ ∀ near ∈ above, Fronts front near → test near = true := by
  induction above with
  | nil => simp
  | cons first rest ih =>
    obtain ⟨fronts, sorted⟩ := List.pairwise_cons.mp sorted
    rw [List.takeWhile_cons]
    cases passes : test first with
    | true =>
      rw [if_pos rfl, List.mem_cons, ih sorted, List.mem_cons, List.forall_mem_cons]
      constructor
      · rintro (rfl | ⟨member, own, nearer⟩)
        · refine ⟨.inl rfl, passes, fun _ => passes, fun near member back => ?_⟩
          have shorter := (fronts near member).length_lt
          have longer := back.length_lt
          omega
        · exact ⟨.inr member, own, fun _ => passes, nearer⟩
      · rintro ⟨rfl | member, own, _, nearer⟩
        · exact .inl rfl
        · exact .inr ⟨member, own, nearer⟩
    | false =>
      simp only [Bool.false_eq_true, if_false, List.not_mem_nil, false_iff]
      rintro ⟨member, own, nearer⟩
      rcases List.mem_cons.mp member with rfl | later
      · cases passes.symm.trans own
      · cases passes.symm.trans (nearer first List.mem_cons_self (fronts front later))

theorem of_find?_eq_some {front near : Text} (found : above.find? test = some front)
    (member : near ∈ above) (fronts : Fronts front near) : test near = false := by
  obtain ⟨_, earlier, later, rfl, fails⟩ := List.find?_eq_some_iff_append.mp found
  rcases List.mem_append.mp member with first | second
  · simpa using fails near first
  · have behind := (List.pairwise_cons.mp (List.pairwise_append.mp sorted).2.1).1
    rcases List.mem_cons.mp second with rfl | last
    · exact (fronts.ne rfl).elim
    · have shorter := (behind near last).length_lt
      have longer := fronts.length_lt
      omega

end Sorted

end Deployments.Registry
