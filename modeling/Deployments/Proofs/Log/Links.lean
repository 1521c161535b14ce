import Mathlib.Data.List.Find
import Mathlib.Data.List.Perm.Subperm
import Mathlib.Data.List.TakeWhile
import Deployments.Proofs.Log.Names

/-!
The links between loggers. They depend on the names that were mentioned and on their order alone:
the next logger above one is the nearest of the names above its own that is there. What the name of
the root begins with counts only above the names that were mentioned later.
-/

namespace Deployments.Registry

def names (r : Registry) : List Text := r.loggers.map (·.name)

/-- The names that have been mentioned, in order, after one more is. The root has none. -/
def mention (made : List Text) (name : Text) : List Text :=
  if isRootName name || made.contains name then made else made ++ [name]

/-- The names that were mentioned before a name. -/
def before (made : List Text) (name : Text) : List Text := made.takeWhile (· != name)

/-- The name of the root begins with the name. -/
def beginsRoot (name : Text) : Bool := rootName.startsWith name

/-- A name counts among those above another one. -/
def counts (made : List Text) (name above : Text) : Bool :=
  (before made name).contains above || (made.contains above && !beginsRoot above)

/-- The nearest name above a name that counts. -/
def parent? (made : List Text) (name : Text) : Option Text :=
  (namesAbove name).find? (counts made name)

structure Linked (r : Registry) : Prop where
  others : ∀ name ∈ r.names, isRootName name = false
  vacant : ∀ l ∈ r.loggers,
    l.vacant = (namesAbove l.name).takeWhile fun above => !(before r.names l.name).contains above
  above : ∀ l ∈ r.loggers, l.above = parent? r.names l.name

theorem isSome_find?_iff {r : Registry} {name : Text} :
    (r.find? name).isSome = true ↔ name ∈ r.names := by
  simp [find?, names, List.find?_isSome]

theorem find?_eq_none_iff {r : Registry} {name : Text} :
    r.find? name = none ↔ name ∉ r.names := by
  rw [← isSome_find?_iff, Option.not_isSome_iff_eq_none]

@[simp] theorem interpose_name (name : Text) (l : Logger) : (interpose name l).name = l.name := by
  unfold interpose
  split <;> rfl

@[simp] theorem interpose_vacant (name : Text) (l : Logger) :
    (interpose name l).vacant = l.vacant := by
  unfold interpose
  split <;> rfl

theorem before_append {made : List Text} {name : Text} (member : name ∈ made) (new : Text) :
    before (made ++ [new]) name = before made name := by
  induction made with
  | nil => cases member
  | cons first rest ih =>
    by_cases same : first = name
    · simp [before, same]
    · have later : name ∈ rest := (List.mem_cons.mp member).resolve_left (Ne.symm same)
      simpa [before, same] using ih later

theorem before_append_self {made : List Text} {new : Text} (fresh : new ∉ made) :
    before (made ++ [new]) new = made := by
  rw [before, List.takeWhile_append_of_pos]
  · simp
  · intro name member
    have other : name ≠ new := fun same => fresh (same ▸ member)
    simpa using other

theorem mem_of_mem_before {made : List Text} {name above : Text}
    (member : above ∈ before made name) : above ∈ made :=
  (List.takeWhile_prefix _).subset member

theorem mem_of_counts {made : List Text} {name above : Text}
    (counted : counts made name above = true) : above ∈ made := by
  rw [counts, Bool.or_eq_true_iff, Bool.and_eq_true_iff, List.contains_iff_mem,
    List.contains_iff_mem] at counted
  rcases counted with earlier | ⟨later, _⟩
  · exact mem_of_mem_before earlier
  · exact later

theorem find?_or_eq {test : Text → Bool} {new : Text} (items : List Text) :
    items.find? (fun item => test item || item == new) =
      if new ∈ items.takeWhile fun item => !test item then some new else items.find? test := by
  induction items with
  | nil => rfl
  | cons first rest ih =>
    by_cases passes : test first = true
    · simp [passes]
    · by_cases same : first = new
      · subst same
        simp [passes]
      · have other : ¬ new = first := Ne.symm same
        simpa [passes, same, other] using ih

section New

variable {made : List Text} {name new : Text} (member : name ∈ made) (fresh : new ∉ made)

theorem not_counts (fresh : new ∉ made) : counts made name new = false := by
  rw [← Bool.not_eq_true]
  exact fun counted => fresh (mem_of_counts counted)

include member in
theorem counts_append (above : Text) :
    counts (made ++ [new]) name above =
      (counts made name above || (above == new && !beginsRoot above)) := by
  rw [counts, counts, before_append member, List.contains_append, List.contains_cons,
    List.contains_nil, Bool.or_false, Bool.and_or_distrib_right, Bool.or_assoc]

include member in
theorem parent?_append_hidden (hidden : beginsRoot new = true) :
    parent? (made ++ [new]) name = parent? made name := by
  refine List.find?_congr fun above _ => ?_
  rw [counts_append member]
  by_cases same : above = new
  · simp [same, hidden]
  · simp [same]

include member in
theorem parent?_append (shown : beginsRoot new = false) :
    parent? (made ++ [new]) name =
      if new ∈ (namesAbove name).takeWhile fun above => !counts made name above then some new
      else parent? made name := by
  rw [parent?, parent?, ← find?_or_eq]
  refine List.find?_congr fun above _ => ?_
  rw [counts_append member]
  by_cases same : above = new
  · rw [same, shown, Bool.not_false, Bool.and_true]
  · rw [beq_eq_false_iff_ne.mpr same, Bool.false_and]

end New

theorem mem_of_parent? {made : List Text} {name above : Text}
    (found : parent? made name = some above) : above ∈ namesAbove name :=
  List.mem_of_find?_eq_some found

theorem counts_of_parent? {made : List Text} {name above : Text}
    (found : parent? made name = some above) : counts made name above = true :=
  List.find?_some found

theorem not_fronts_of_beginsRoot {front name : Text} (begins : beginsRoot name = true) :
    ¬ Fronts front name := by
  intro fronts
  have inside : front.toList ++ [.char '.'] <+: rootName.toList :=
    List.IsPrefix.trans fronts (Text.startsWith_iff.mp begins)
  have dot : .char '.' ∈ rootName.toList := inside.subset (by simp)
  exact absurd dot (by decide)

section Interposed

variable {made : List Text} {l : Logger} {new : Text} (fresh : new ∉ made)
  (vacant : l.vacant =
    (namesAbove l.name).takeWhile fun above => !(before made l.name).contains above)
  (above : l.above = parent? made l.name)

include fresh above

theorem startsWith_of_hidden (hidden : beginsRoot new = true)
    (member : new ∈ namesAbove l.name) : (aboveName l).startsWith new = true := by
  rw [aboveName, above]
  cases found : parent? made l.name with
  | none => exact hidden
  | some near =>
    have apart : new ≠ near := fun same => fresh (same ▸ mem_of_counts (counts_of_parent? found))
    rcases fronts_or_fronts member (mem_of_parent? found) apart with farther | nearer
    · exact farther.startsWith
    · exact (not_fronts_of_beginsRoot hidden nearer).elim

include vacant in
theorem interposes_iff (shown : beginsRoot new = false) :
    new ∈ l.vacant ∧ (aboveName l).startsWith new = false ↔
      new ∈ (namesAbove l.name).takeWhile fun above => !counts made l.name above := by
  have sorted := pairwise_namesAbove l.name
  have ineligible : counts made l.name new = false := not_counts fresh
  rw [vacant, mem_takeWhile_iff sorted, mem_takeWhile_iff sorted, aboveName, above]
  constructor
  · rintro ⟨⟨member, _, _⟩, other⟩
    refine ⟨member, by simp [ineligible], fun near place fronts => ?_⟩
    rw [Bool.not_eq_true', ← Bool.not_eq_true]
    intro counted
    cases found : parent? made l.name with
    | none => exact List.find?_eq_none.mp found near place counted
    | some first =>
      -- The first that counts is as near as this one, so its name begins with the new one.
      rw [found, Option.getD_some] at other
      have back : ¬ Fronts new first := fun fronts => by
        rw [fronts.startsWith] at other
        cases other
      by_cases same : near = first
      · exact back (same ▸ fronts)
      · rcases fronts_or_fronts place (mem_of_parent? found) same with farther | nearer
        · exact back (fronts.trans farther)
        · rw [of_find?_eq_some sorted found place nearer] at counted
          cases counted
  · rintro ⟨member, _, nearer⟩
    refine ⟨⟨member, ?_, fun near place fronts => ?_⟩, ?_⟩
    · simpa using fun early => fresh (mem_of_mem_before early)
    · have skipped := nearer near place fronts
      rw [counts, Bool.not_or, Bool.and_eq_true_iff] at skipped
      exact skipped.1
    · cases found : parent? made l.name with
      | none => exact shown
      | some first =>
        have counted := counts_of_parent? found
        have apart : new ≠ first := fun same => fresh (same ▸ mem_of_counts counted)
        rcases fronts_or_fronts member (mem_of_parent? found) apart with fronts | fronts
        · have skipped := nearer first (mem_of_parent? found) fronts
          rw [counted] at skipped
          cases skipped
        · exact fronts.not_startsWith

include vacant in
/-- A new logger comes between a logger and the one above it exactly if its name is nearer and
counts. -/
theorem interpose_above (member : l.name ∈ made) :
    (interpose new l).above = parent? (made ++ [new]) l.name := by
  unfold interpose
  cases hidden : beginsRoot new with
  | true =>
    have kept : ¬ (l.vacant.contains new && !(aboveName l).startsWith new) = true := by
      rw [Bool.and_eq_true_iff, List.contains_iff_mem, vacant]
      rintro ⟨inside, other⟩
      have place := (List.takeWhile_prefix _).subset inside
      rw [startsWith_of_hidden fresh above hidden place] at other
      cases other
    rw [if_neg kept, parent?_append_hidden member hidden, above]
  | false =>
    rw [parent?_append member hidden, ← above]
    have same := interposes_iff fresh vacant above hidden
    by_cases inside : new ∈ (namesAbove l.name).takeWhile fun above => !counts made l.name above
    · obtain ⟨place, other⟩ := same.mpr inside
      rw [if_pos (by simp [place, other]), if_pos inside]
    · have outside := mt same.mp inside
      rw [if_neg (by simpa using outside), if_neg inside]

end Interposed

/-! ### What is done to the loggers keeps their links -/

/-- A logger below the nearest name that is there, with no level or handler. -/
def fresh (made : List Text) (name : Text) : Logger where
  name
  above := (namesAbove name).find? made.contains
  vacant := (namesAbove name).takeWhile fun above => !made.contains above
  level := 0
  handlers := 0
  propagates := true

theorem make_of_known {r : Registry} {name : Text}
    (known : isRootName name = true ∨ name ∈ r.names) : r.make name = r := by
  rw [make, if_pos]
  rw [Bool.or_eq_true_iff, isSome_find?_iff]
  exact known

theorem make_of_new {r : Registry} {name : Text} (other : isRootName name = false)
    (new : name ∉ r.names) :
    r.make name = { r with loggers := r.loggers.map (interpose name) ++ [fresh r.names name] } := by
  have known : ¬ (isRootName name || (r.find? name).isSome) = true := by
    rw [Bool.or_eq_true_iff, isSome_find?_iff, other]
    simpa using new
  have vacant (above : Text) : (r.find? above).isNone = !r.names.contains above := by
    rw [← Option.not_isSome, Bool.not_inj_iff, Bool.eq_iff_iff, isSome_find?_iff,
      List.contains_iff_mem]
  rw [make, if_neg known, fresh, List.find?_eq_head?_dropWhile_not]
  simp only [vacant]

theorem mention_of_known {made : List Text} {name : Text}
    (known : isRootName name = true ∨ name ∈ made) : mention made name = made := by
  rw [mention, if_pos]
  rwa [Bool.or_eq_true_iff, List.contains_iff_mem]

theorem mention_of_new {made : List Text} {name : Text} (other : isRootName name = false)
    (new : name ∉ made) : mention made name = made ++ [name] := by
  rw [mention, if_neg]
  rw [Bool.or_eq_true_iff, List.contains_iff_mem, other]
  simpa using new

theorem known_or_new (made : List Text) (name : Text) :
    (isRootName name = true ∨ name ∈ made) ∨ isRootName name = false ∧ name ∉ made := by
  rw [← Bool.not_eq_true, ← not_or]
  exact Classical.em _

theorem names_make (r : Registry) (name : Text) : (r.make name).names = mention r.names name := by
  rcases known_or_new r.names name with known | ⟨other, new⟩
  · rw [make_of_known known, mention_of_known known]
  · have same : (·.name) ∘ interpose name = (·.name) := funext (interpose_name name)
    rw [make_of_new other new, mention_of_new other new]
    simp [names, List.map_map, same, fresh]

theorem parent?_append_self {made : List Text} {new : Text} (absent : new ∉ made) :
    parent? (made ++ [new]) new = (namesAbove new).find? made.contains := by
  refine List.find?_congr fun above member => ?_
  have other : (above == new) = false :=
    beq_eq_false_iff_ne.mpr (fronts_of_mem_namesAbove member).ne
  rw [counts, before_append_self absent, List.contains_append, List.contains_cons,
    List.contains_nil, other, Bool.or_false, Bool.or_false]
  cases made.contains above <;> rfl

theorem Linked.make {r : Registry} (linked : r.Linked) (name : Text) : (r.make name).Linked := by
  have listed := names_make r name
  rcases known_or_new r.names name with known | ⟨other, new⟩
  · rwa [make_of_known known]
  · rw [mention_of_new other new] at listed
    rw [make_of_new other new] at listed ⊢
    constructor
    · rw [listed]
      intro known member
      rcases List.mem_append.mp member with old | last
      · exact linked.others known old
      · rw [List.mem_singleton.mp last, other]
    · rw [listed]
      intro l member
      rcases List.mem_append.mp member with old | last
      · obtain ⟨l, place, rfl⟩ := List.mem_map.mp old
        have known : l.name ∈ r.names := List.mem_map_of_mem place
        rw [interpose_name, interpose_vacant, before_append known]
        exact linked.vacant l place
      · rw [List.mem_singleton.mp last, fresh, before_append_self new]
    · rw [listed]
      intro l member
      rcases List.mem_append.mp member with old | last
      · obtain ⟨l, place, rfl⟩ := List.mem_map.mp old
        rw [interpose_name]
        exact interpose_above new (linked.vacant l place) (linked.above l place)
          (List.mem_map_of_mem place)
      · rw [List.mem_singleton.mp last, fresh, parent?_append_self new]

theorem Linked.update {r : Registry} (linked : r.Linked) (name : Text) {f : Logger → Logger}
    (keeps : ∀ l, (f l).name = l.name ∧ (f l).vacant = l.vacant ∧ (f l).above = l.above) :
    (r.update name f).Linked ∧ (r.update name f).names = r.names := by
  unfold Registry.update
  split
  next => exact ⟨⟨linked.others, linked.vacant, linked.above⟩, rfl⟩
  next =>
    have each (l : Logger) : let l' := if l.name == name then f l else l
        l'.name = l.name ∧ l'.vacant = l.vacant ∧ l'.above = l.above := by
      dsimp only
      split
      · exact keeps l
      · exact ⟨rfl, rfl, rfl⟩
    have listed : (r.loggers.map fun l => if l.name == name then f l else l).map (·.name) =
        r.names := by
      rw [List.map_map]
      exact List.map_congr_left fun l _ => (each l).1
    refine ⟨⟨?_, ?_, ?_⟩, listed⟩
    · rw [names, listed]
      exact linked.others
    · rw [names, listed]
      intro l member
      obtain ⟨l, place, rfl⟩ := List.mem_map.mp member
      rw [(each l).1, (each l).2.1]
      exact linked.vacant l place
    · rw [names, listed]
      intro l member
      obtain ⟨l, place, rfl⟩ := List.mem_map.mp member
      rw [(each l).1, (each l).2.2]
      exact linked.above l place

theorem linked_start (level : Nat) : (start level).Linked :=
  ⟨List.forall_mem_nil _, List.forall_mem_nil _, List.forall_mem_nil _⟩

/-! ### The loggers above one -/

theorem length_of_parent? {made : List Text} {name above : Text}
    (found : parent? made name = some above) : above.toList.length < name.toList.length :=
  (fronts_of_mem_namesAbove (mem_of_parent? found)).length_lt

/-- The name and the names of the loggers above its own, the nearest first; the root is left out. -/
def lineage (made : List Text) (name : Text) : List Text :=
  match found : parent? made name with
  | none => [name]
  | some above =>
    have := length_of_parent? found
    name :: lineage made above
termination_by name.toList.length

theorem lineage_of_none {made : List Text} {name : Text} (root : parent? made name = none) :
    lineage made name = [name] := by
  rw [lineage]
  split
  next => rfl
  next found => cases root.symm.trans found

theorem lineage_of_some {made : List Text} {name above : Text}
    (found : parent? made name = some above) :
    lineage made name = name :: lineage made above := by
  rw [lineage]
  split
  next root => cases root.symm.trans found
  next found' =>
    cases found.symm.trans found'
    rfl

theorem fronts_of_mem_lineage {made : List Text} {name other : Text}
    (member : other ∈ lineage made name) : other = name ∨ Fronts other name ∧ other ∈ made := by
  fun_induction lineage made name with
  | case1 name _ => exact .inl (List.mem_singleton.mp member)
  | case2 name above found _ ih =>
    rcases List.mem_cons.mp member with same | later
    · exact .inl same
    · have fronts := fronts_of_mem_namesAbove (mem_of_parent? found)
      rcases ih later with rfl | ⟨farther, known⟩
      · exact .inr ⟨fronts, mem_of_counts (counts_of_parent? found)⟩
      · exact .inr ⟨farther.trans fronts, known⟩

theorem nodup_lineage (made : List Text) (name : Text) : (lineage made name).Nodup := by
  fun_induction lineage made name with
  | case1 name _ => exact List.pairwise_singleton _ _
  | case2 name above found shorter ih =>
    refine List.nodup_cons.mpr ⟨fun member => ?_, ih⟩
    rcases fronts_of_mem_lineage member with rfl | ⟨fronts, _⟩
    · exact Nat.lt_irrefl _ shorter
    · have back := fronts.length_lt
      omega

theorem length_lineage_le {made : List Text} {name : Text} (member : name ∈ made) :
    (lineage made name).length ≤ made.length := by
  refine (List.Nodup.subperm (nodup_lineage made name) fun other inside => ?_).length_le
  rcases fronts_of_mem_lineage inside with rfl | ⟨_, known⟩
  · exact member
  · exact known

theorem Linked.chainFrom_eq {r : Registry} (linked : r.Linked) {fuel : Nat} {name : Text}
    (member : name ∈ r.names) (enough : (lineage r.names name).length ≤ fuel) :
    r.chainFrom fuel (some name) = (lineage r.names name).filterMap r.find? ++ [r.root] := by
  -- Each step up takes one from the fuel and one from the lineage.
  induction fuel generalizing name with
  | zero =>
    rw [lineage] at enough
    split at enough <;> cases enough
  | succ fuel ih =>
    obtain ⟨l, found⟩ := Option.isSome_iff_exists.mp (isSome_find?_iff.mpr member)
    have same : l.name = name := by simpa using List.find?_some found
    have above : l.above = parent? r.names name := by
      rw [linked.above l (List.mem_of_find?_eq_some found), same]
    rw [chainFrom, found]
    dsimp only
    rw [above]
    cases next_ : parent? r.names name with
    | none =>
      have root : r.chainFrom fuel none = [r.root] := by cases fuel <;> rfl
      rw [lineage_of_none next_, root]
      simp [found]
    | some other =>
      rw [lineage_of_some next_, List.length_cons] at enough
      rw [lineage_of_some next_, List.filterMap_cons, found,
        ih (mem_of_counts (counts_of_parent? next_)) (by omega)]
      rfl

/-- The names of the loggers at or above one of the name, the nearest first. -/
def atOrAbove (made : List Text) (name : Text) : List Text :=
  if isRootName name then [] else lineage made name

theorem Linked.chain_eq {r : Registry} (linked : r.Linked) {name : Text}
    (known : isRootName name = true ∨ name ∈ r.names) :
    r.chain name = (atOrAbove r.names name).filterMap r.find? ++ [r.root] := by
  unfold chain atOrAbove
  split
  next => cases r.loggers.length <;> rfl
  next other =>
    have member := known.resolve_left other
    have enough : (lineage r.names name).length ≤ r.loggers.length := by
      simpa [names] using length_lineage_le member
    exact linked.chainFrom_eq member enough

end Deployments.Registry
