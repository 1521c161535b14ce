import Mathlib.Data.List.Lex
import Mathlib.Data.List.Sort
import Deployments.Snapshot

/-!
The order in which snapshots are printed. They are sorted by the code points of their names, and
those of one name keep their order; there is no other arrangement of them that is so.
-/

namespace Deployments

namespace Snapshot

variable {η : Facet → Type}

/-- The snapshots of a name, in their order. -/
def named (name : Text) (snapshots : List (Snapshot η)) : List (Snapshot η) :=
  snapshots.filter fun s => s.name = name

theorem mem_named {name : Text} {snapshots : List (Snapshot η)} {s : Snapshot η} :
    s ∈ named name snapshots ↔ s ∈ snapshots ∧ s.name = name := by
  simp [named]

/-- The snapshots stand in the order of code points of their names. -/
def IsOrdered (snapshots : List (Snapshot η)) : Prop :=
  snapshots.Pairwise fun a b => a.name.inOrder b.name = true

/-- The given snapshots, ordered by their names, where those of one name keep their order. -/
structure IsStableSort (given sorted : List (Snapshot η)) : Prop where
  perm : sorted.Perm given
  ordered : IsOrdered sorted
  stable : ∀ name, named name sorted = named name given

section Order

variable (a b c : Snapshot η)

theorem inOrder_trans_name (first : a.name.inOrder b.name = true)
    (later : b.name.inOrder c.name = true) : a.name.inOrder c.name = true :=
  Text.inOrder_trans first later

theorem inOrder_total_name : (a.name.inOrder b.name || b.name.inOrder a.name) = true :=
  Bool.or_eq_true_iff.mpr (Text.inOrder_total a.name b.name)

end Order

theorem isStableSort_sorted (snapshots : List (Snapshot η)) :
    IsStableSort snapshots (sorted snapshots) := by
  have perm : (sorted snapshots).Perm snapshots := List.mergeSort_perm _ _
  refine ⟨perm, ?_, fun name => ?_⟩
  · exact List.pairwise_mergeSort inOrder_trans_name inOrder_total_name snapshots
  · -- Those of one name stand in order as they are given, and so they are kept.
    have inOrder : (named name snapshots).Pairwise fun a b => a.name.inOrder b.name = true := by
      refine List.pairwise_of_forall_mem_list fun a member b member' => ?_
      have same : a.name = b.name := (mem_named.mp member).2.trans (mem_named.mp member').2.symm
      exact same ▸ Text.inOrder_refl a.name
    have kept := (List.sublist_mergeSort inOrder_trans_name inOrder_total_name inOrder
      List.filter_sublist).filter fun s => s.name = name
    rw [named, List.filter_filter] at kept
    simp only [Bool.and_self] at kept
    exact (kept.eq_of_length (perm.filter _).length_eq.symm).symm

theorem named_cons_self (s : Snapshot η) (rest : List (Snapshot η)) :
    named s.name (s :: rest) = s :: named s.name rest := by
  simp [named]

theorem IsOrdered.head_le {s other : Snapshot η} {rest : List (Snapshot η)}
    (ordered : IsOrdered (s :: rest)) (member : other ∈ s :: rest) :
    s.name.inOrder other.name = true := by
  rcases List.mem_cons.mp member with rfl | later
  · exact Text.inOrder_refl _
  · exact (List.pairwise_cons.mp ordered).1 other later

theorem mem_iff_of_named {first second : List (Snapshot η)}
    (same : ∀ name, named name first = named name second) (s : Snapshot η) :
    s ∈ first ↔ s ∈ second := by
  have both := congrArg (s ∈ ·) (same s.name)
  simpa [mem_named] using both

/-- Snapshots in order are determined by those of each name. -/
theorem eq_of_named {first second : List (Snapshot η)} (ordered : IsOrdered first)
    (ordered' : IsOrdered second) (same : ∀ name, named name first = named name second) :
    first = second := by
  have members := mem_iff_of_named same
  induction first generalizing second with
  | nil => exact (List.eq_nil_iff_forall_not_mem.mpr fun a => by simp [← members a]).symm
  | cons a first ih =>
    cases second with
    | nil => exact absurd ((members a).mp List.mem_cons_self) List.not_mem_nil
    | cons b second =>
      -- Both heads have the least name, and each is the first one of it.
      have le := ordered.head_le ((members b).mpr List.mem_cons_self)
      have ge := ordered'.head_le ((members a).mp List.mem_cons_self)
      have name : a.name = b.name := Text.inOrder_antisymm le ge
      have heads := same a.name
      rw [named_cons_self, name, named_cons_self] at heads
      obtain rfl : a = b := (List.cons.inj heads).1
      have tails (other : Text) : named other first = named other second := by
        have both := same other
        by_cases at_ : a.name = other <;> simpa [named, at_] using both
      rw [ih ordered.of_cons ordered'.of_cons tails (mem_iff_of_named tails)]

/-- There is one stable sort of given snapshots. -/
theorem isStableSort_iff {given arranged : List (Snapshot η)} :
    IsStableSort given arranged ↔ arranged = sorted given := by
  have stands := isStableSort_sorted given
  constructor
  · intro stable
    refine eq_of_named stable.ordered stands.ordered fun name => ?_
    rw [stable.stable, stands.stable]
  · rintro rfl
    exact stands

/-- Rearranging snapshots changes nothing if those of one name keep their order. -/
theorem sorted_eq_of_named {snapshots others : List (Snapshot η)}
    (same : ∀ name, named name others = named name snapshots) :
    sorted others = sorted snapshots := by
  refine eq_of_named (isStableSort_sorted others).ordered (isStableSort_sorted snapshots).ordered
    fun name => ?_
  rw [(isStableSort_sorted others).stable, (isStableSort_sorted snapshots).stable, same]

/-- Rearranging snapshots changes nothing if none has the name of another one. -/
theorem sorted_eq_of_perm {snapshots others : List (Snapshot η)} (perm : others.Perm snapshots)
    (distinct : ∀ a ∈ snapshots, ∀ b ∈ snapshots, a.name = b.name → a = b) :
    sorted others = sorted snapshots := by
  have first := isStableSort_sorted others
  have second := isStableSort_sorted snapshots
  refine List.Perm.eq_of_pairwise (fun a b member member' le ge => ?_) first.ordered second.ordered
    ((first.perm.trans perm).trans second.perm.symm)
  refine distinct a (perm.mem_iff.mp (first.perm.mem_iff.mp member)) b
    (second.perm.mem_iff.mp member') ?_
  exact Text.inOrder_antisymm le ge

end Snapshot

end Deployments
