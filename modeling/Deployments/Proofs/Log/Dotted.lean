import Deployments.Proofs.Log.Links

/-!
Names whose dots alone tell what is above them: all that stands in front of a dot. This fails for a
name with two dots in a row, and for one below a name that the root's begins with.
-/

namespace Deployments.Registry

def dottedOf (ps : List Point) : List Text :=
  ((ps.inits.filter fun front => front ≠ [] ∧ front ++ [.char '.'] <+: ps).map Text.ofList).reverse

/-- What stands in front of the dots of a name, the longest first. -/
def dotted (name : Text) : List Text := dottedOf name.toList

/-- The names at or above one by its dots alone, the nearest first, and the root last. -/
def dottedAbove (name : Text) : List Text :=
  (name :: dotted name).filter (!isRootName ·) ++ [rootName]

/-- A name is below all that stands in front of its dots, whenever that is mentioned. -/
structure IsPlain (name : Text) : Prop where
  single : ¬ [.char '.', .char '.'] <:+: name.toList
  shown : ∀ front ∈ (["r", "ro", "roo"] : List Text), ¬ Fronts front name

theorem inits_concat (ps : List Point) (p : Point) :
    (ps ++ [p]).inits = ps.inits ++ [ps ++ [p]] := by
  simp

theorem exists_inits (ps : List Point) :
    ∃ shorter, ps.inits = shorter ++ [ps] ∧ ∀ front ∈ shorter, front.length < ps.length := by
  induction ps using List.reverseRecOn with
  | nil => exact ⟨[], rfl, List.forall_mem_nil _⟩
  | append_singleton ps p _ =>
    refine ⟨ps.inits, inits_concat ps p, fun front member => ?_⟩
    have bound := ((List.mem_inits _ _).mp member).length_le
    rw [List.length_append, List.length_singleton]
    omega

theorem dottedOf_concat (ps : List Point) (p : Point) :
    dottedOf (ps ++ [p]) =
      if p = .char '.' ∧ ps ≠ [] then Text.ofList ps :: dottedOf ps else dottedOf ps := by
  obtain ⟨shorter, all, bound⟩ := exists_inits ps
  have longer (front : List Point) : ¬ front ++ [.char '.'] <+: front := fun begins => by
    have length := begins.length_le
    rw [List.length_append, List.length_singleton] at length
    omega
  have last : ps ++ [.char '.'] <+: ps ++ [p] ↔ p = .char '.' := by
    rw [List.prefix_append_right_inj]
    simp [eq_comm]
  have early : shorter.filter (fun front => front ≠ [] ∧ front ++ [.char '.'] <+: ps ++ [p]) =
      shorter.filter fun front => front ≠ [] ∧ front ++ [.char '.'] <+: ps := by
    refine List.filter_congr fun front member => ?_
    have apart : front ++ [.char '.'] ≠ ps ++ [p] := fun same => by
      have length := congrArg List.length same
      have short := bound front member
      simp only [List.length_append, List.length_singleton] at length
      omega
    simp only [List.prefix_concat_iff, or_iff_right apart]
  rw [dottedOf, inits_concat, dottedOf, all, List.filter_append, List.filter_append, early,
    List.filter_append]
  have whole : ¬ (ps ++ [p] ≠ [] ∧ ps ++ [p] ++ [.char '.'] <+: ps ++ [p]) := fun both =>
    longer _ both.2
  have own : ¬ (ps ≠ [] ∧ ps ++ [.char '.'] <+: ps) := fun both => longer _ both.2
  simp only [List.filter_cons, List.filter_nil, decide_eq_true_eq, if_neg whole, if_neg own, last,
    List.append_nil]
  by_cases dot : p = .char '.' ∧ ps ≠ []
  · rw [if_pos dot, if_pos dot.symm]
    simp
  · rw [if_neg dot, if_neg (mt And.symm dot), List.append_nil]

theorem frontsFrom_cons {p : Point} (other : p ≠ .char '.') (ps : List Point) :
    frontsFrom (p :: ps) = frontsFrom ps := by
  rw [frontsFrom]
  intro first others same
  exact absurd same other

theorem frontsFrom_eq {ps : List Point} (single : ¬ [.char '.', .char '.'] <:+: ps) :
    frontsFrom ps = dottedOf ps.reverse := by
  fun_induction frontsFrom ps with
  | case1 p ps ih =>
    have other : p ≠ .char '.' := by
      rintro rfl
      exact single ⟨[], ps, rfl⟩
    have rest : ¬ [.char '.', .char '.'] <:+: ps := fun inside =>
      single (inside.trans ⟨[.char '.', p], [], by simp⟩)
    have whole : (.char '.' :: p :: ps).reverse = ps.reverse ++ [p] ++ [.char '.'] := by simp
    rw [ih rest, whole, dottedOf_concat, if_pos ⟨rfl, by simp⟩, dottedOf_concat,
      if_neg fun dot => other dot.1, List.reverse_cons]
  | case2 p ps unlike ih =>
    have rest : ¬ [.char '.', .char '.'] <:+: ps := fun inside =>
      single (inside.trans ⟨[p], [], by simp⟩)
    have plain : ¬ (p = .char '.' ∧ ps.reverse ≠ []) := by
      rintro ⟨rfl, filled⟩
      cases ps with
      | nil => exact filled rfl
      | cons first others => exact unlike first others rfl rfl
    rw [ih rest, List.reverse_cons, dottedOf_concat, if_neg plain]
  | case3 => decide

theorem infix_reverse {ps : List Point} (single : ¬ [.char '.', .char '.'] <:+: ps) :
    ¬ [.char '.', .char '.'] <:+: ps.reverse := by
  rwa [← List.reverse_infix, List.reverse_reverse]

theorem namesAbove_eq {name : Text} (single : ¬ [.char '.', .char '.'] <:+: name.toList) :
    namesAbove name = dotted name := by
  rw [namesAbove, frontsFrom_eq (infix_reverse single), List.reverse_reverse, dotted]

/-- What is above a name above is above the name as well. -/
theorem frontsFrom_behind {ps : List Point} (single : ¬ [.char '.', .char '.'] <:+: ps)
    {nearer farther : List Text} {front : Text}
    (all : frontsFrom ps = nearer ++ front :: farther) : namesAbove front = farther := by
  fun_induction frontsFrom ps generalizing nearer with
  | case1 p ps ih =>
    have other : p ≠ .char '.' := by
      rintro rfl
      exact single ⟨[], ps, rfl⟩
    have rest : ¬ [.char '.', .char '.'] <:+: ps := fun inside =>
      single (inside.trans ⟨[.char '.', p], [], by simp⟩)
    cases nearer with
    | nil =>
      obtain ⟨rfl, rfl⟩ := List.cons.inj all
      rw [namesAbove, Text.toList_ofList, List.reverse_reverse, frontsFrom_cons other]
    | cons first nearer => exact ih rest (List.cons.inj all).2
  | case2 p ps unlike ih =>
    have rest : ¬ [.char '.', .char '.'] <:+: ps := fun inside =>
      single (inside.trans ⟨[p], [], by simp⟩)
    exact ih rest all
  | case3 => cases nearer <;> cases all

theorem counts_eq {made : List Text} {name above : Text}
    (shown : above ∈ made → beginsRoot above = false) :
    counts made name above = made.contains above := by
  by_cases member : above ∈ made
  · simp [counts, member, shown member]
  · rw [not_counts member]
    simpa using member

theorem lineage_eq {made : List Text} {name : Text}
    (single : ¬ [.char '.', .char '.'] <:+: name.toList)
    (shown : ∀ front ∈ namesAbove name, front ∈ made → beginsRoot front = false) :
    lineage made name = name :: (namesAbove name).filter made.contains := by
  fun_induction lineage made name with
  | case1 name root =>
    have none_ : (namesAbove name).filter made.contains = [] := by
      rw [List.filter_eq_nil_iff]
      intro front member
      rw [← counts_eq (shown front member)]
      exact List.find?_eq_none.mp root front member
    rw [none_]
  | case2 name above found _ ih =>
    -- None of the nearer names is there, and the farther ones are those above the one found.
    obtain ⟨counted, nearer, farther, all, fails⟩ := List.find?_eq_some_iff_append.mp found
    have fronts := fronts_of_mem_namesAbove (mem_of_parent? found)
    have behind : namesAbove above = farther := frontsFrom_behind (infix_reverse single) all
    have single_ : ¬ [.char '.', .char '.'] <:+: above.toList := fun inside =>
      single (inside.trans fronts.prefix_.isInfix)
    have skipped : nearer.filter made.contains = [] := by
      rw [List.filter_eq_nil_iff]
      intro front member
      have place : front ∈ namesAbove name := all ▸ List.mem_append_left _ member
      rw [← counts_eq (shown front place)]
      simpa using fails front member
    have shown_ : ∀ front ∈ namesAbove above, front ∈ made → beginsRoot front = false := by
      intro front member
      rw [behind] at member
      exact shown front (all ▸ List.mem_append_right _ (List.mem_cons_of_mem _ member))
    rw [ih single_ shown_, behind, all, List.filter_append, skipped, List.nil_append,
      List.filter_cons_of_pos (List.contains_iff_mem.mpr (mem_of_counts counted))]

theorem mem_of_beginsRoot {name : Text} (begins : beginsRoot name = true) :
    name ∈ (["", "r", "ro", "roo", "root"] : List Text) := by
  have front := (List.mem_inits _ _).mpr (Text.startsWith_iff.mp begins)
  have all : ∀ ps ∈ rootName.toList.inits,
      Text.ofList ps ∈ (["", "r", "ro", "roo", "root"] : List Text) := by decide
  simpa using all name.toList front

end Deployments.Registry
