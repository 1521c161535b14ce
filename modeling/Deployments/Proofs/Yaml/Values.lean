import Deployments.Proofs.Decimal.Canonical
import Deployments.Proofs.Reading.Kept
import Deployments.Yaml.Document

/-!
The numbers in documents. Each number that a document gives has its one form.
-/

namespace Deployments

open Decimal

/-- A number among the values has its one form. -/
def Value.IsCanonical : Value → Prop
  | .float x => x.Canonical
  | _ => True

namespace Yaml

namespace Scalar

theorem canonical_sixtieths (parts : List Binary64) : (sixtieths parts).Canonical := by
  have sums : ∀ (parts : List Binary64) (state : Binary64 × Int), state.1.Canonical →
      (parts.foldl (fun state x =>
        (Binary64.add state.1 (Binary64.mul x (Binary64.ofInt state.2)), state.2 * 60))
        state).1.Canonical := by
    intro parts
    induction parts with
    | nil => exact fun _ canonical => canonical
    | cons x rest ih => exact fun _ _ => ih _ (Binary64.canonical_add _ _)
  exact sums _ _ (Binary64.canonical_zero false)

theorem canonical_numberIn {cs : List Char} {x : Binary64} (read : numberIn cs = .ok x) :
    x.Canonical := by
  unfold numberIn at read
  split at read
  next found =>
    cases read
    exact canonical_number? found
  next => cases read

theorem canonical_number {cs : List Char} {x : Binary64} (read : number cs = .ok x) :
    x.Canonical := by
  unfold number at read
  dsimp only at read
  split at read
  next => cases read
  next =>
    generalize (splitSign ((cs.filter (· != '_')).map Char.toLower)).2 = unsigned at read
    have magnitude : ∀ y, (if unsigned == ".inf".toList then .ok (.infinity false)
        else if unsigned == ".nan".toList then .ok .nan
        else if unsigned.contains ':' then
          ((Text.split ':' unsigned).mapM numberIn).map sixtieths
        else numberIn unsigned : Except Fault Binary64) = .ok y → y.Canonical := by
      intro y found
      split_ifs at found
      · cases found
        trivial
      · cases found
        trivial
      · obtain ⟨parts, _, rfl⟩ := map_eq_ok_iff.mp found
        exact canonical_sixtieths parts
      · exact canonical_numberIn found
    obtain ⟨y, found, rfl⟩ := map_eq_ok_iff.mp read
    split
    next => exact (magnitude y found).negate
    next => exact magnitude y found

theorem all_timestamp {cs : List Char} {v : Value} (built : timestamp cs = .ok v) :
    v.All Value.IsCanonical := by
  have moments : (∃ d, v = .date d) ∨ ∃ m, v = .moment m := by
    unfold timestamp at built
    dsimp only at built
    split at built
    next => cases built
    next =>
      split at built
      next date _ =>
        cases built
        exact .inl ⟨date, rfl⟩
      next moment _ =>
        cases built
        exact .inr ⟨moment, rfl⟩
      next => cases built
  rcases moments with ⟨_, rfl⟩ | ⟨_, rfl⟩ <;>
    exact Value.all_of_not_isCollection rfl trivial

theorem all_binary {cs : List Char} {v : Value} (built : binary cs = .ok v) :
    v.All Value.IsCanonical := by
  have bytes : ∃ bs, v = .bytes bs := by
    unfold binary at built
    split at built
    next =>
      split at built
      next bs _ =>
        cases built
        exact ⟨bs, rfl⟩
      next => cases built
    next => cases built
  obtain ⟨_, rfl⟩ := bytes
  exact Value.all_of_not_isCollection rfl trivial

/-- The value of a scalar is no collection, and a number has its one form. -/
theorem all_value {tag : Tag} {text : Text} {v : Value} (built : value tag text = .ok v) :
    v.All Value.IsCanonical := by
  cases tag with
  | null | str =>
    cases built
    exact Value.all_of_not_isCollection rfl trivial
  | bool | int =>
    obtain ⟨_, _, rfl⟩ := map_eq_ok_iff.mp built
    exact Value.all_of_not_isCollection rfl trivial
  | float =>
    obtain ⟨x, read, rfl⟩ := map_eq_ok_iff.mp built
    exact Value.all_of_not_isCollection rfl (canonical_number read)
  | timestamp => exact all_timestamp built
  | binary => exact all_binary built
  | _ => cases built

end Scalar

/-! ### Collections -/

namespace Built

variable {α β γ : Type}

theorem both_eq_ok_iff {f : α → β → γ} {x : Built α} {y : Built β} {c : γ} :
    both f x y = .ok c ↔ ∃ a, x = .ok a ∧ ∃ b, y = .ok b ∧ f a b = c := by
  cases x <;> cases y <;> simp [both]

theorem all_eq_ok_iff {xs : List (Built α)} {items : List α} :
    all xs = .ok items ↔ xs = items.map .ok := by
  induction xs generalizing items with
  | nil => cases items <;> simp [all]
  | cons x rest ih =>
    rw [all, both_eq_ok_iff]
    cases items <;> simp [ih]

theorem ok_mem_of_all {xs : List (Built α)} {items : List α} (built : all xs = .ok items) :
    ∀ a ∈ items, .ok a ∈ xs := by
  intro a member
  rw [all_eq_ok_iff.mp built]
  exact List.mem_map_of_mem member

end Built

end Yaml

theorem Entries.forall_mem_ofList {p q : Value → Prop} {given : List (Value × Value)}
    (all : ∀ entry ∈ given, p entry.1 ∧ q entry.2) :
    ∀ entry ∈ Entries.ofList given, p entry.1 ∧ q entry.2 := by
  have inserted : ∀ (entries : Entries) (key value : Value), p key → q value →
      (∀ entry ∈ entries, p entry.1 ∧ q entry.2) →
        ∀ entry ∈ insert entries key value, p entry.1 ∧ q entry.2 := by
    intro entries key value good good' all
    induction entries with
    | nil => exact List.forall_mem_singleton.mpr ⟨good, good'⟩
    | cons first rest ih =>
      rw [List.forall_mem_cons] at all
      rw [insert]
      split
      · exact List.forall_mem_cons.mpr ⟨⟨all.1.1, good'⟩, all.2⟩
      · exact List.forall_mem_cons.mpr ⟨all.1, ih all.2⟩
  have folded : ∀ (more entries : List (Value × Value)), (∀ entry ∈ more, p entry.1 ∧ q entry.2) →
      (∀ entry ∈ entries, p entry.1 ∧ q entry.2) →
        ∀ entry ∈ more.foldl (fun made entry => insert made entry.1 entry.2) entries,
          p entry.1 ∧ q entry.2 := by
    intro more
    induction more with
    | nil => exact fun _ _ all => all
    | cons entry rest ih =>
      intro entries all made
      rw [List.forall_mem_cons] at all
      exact ih _ all.2 (inserted entries entry.1 entry.2 all.1.1 all.1.2 made)
  exact folded given [] all (List.forall_mem_nil _)

theorem Value.all_setOf {p : Value → Prop} {items : List Value} (order : SetOrder)
    (own : ∀ kept, p (.set kept)) (all : ∀ v ∈ items, v.All p) :
    (Value.setOf order items).All p := by
  refine all_set (own _) fun v member => ?_
  replace member := (order.perm _).mem_iff.mp member
  have adds : ∀ (kept : List Value) (x a : Value),
      a ∈ (if kept.any (·.sameKey x) then kept else kept ++ [x]) → a = x ∨ a ∈ kept := by
    intro kept x a member
    split at member
    · exact .inr member
    · exact (List.mem_append.mp member).symm.imp_left List.mem_singleton.mp
  rcases mem_of_mem_foldl adds member with given | none_
  · exact all v given
  · cases none_

namespace Yaml

namespace Node

/-- What a mapping takes over from the node under a key that merges. -/
def taken (order : SetOrder) (generation : Nat) : Node → Built (List (Built (Value × Value)))
  | mapping _ _ inner =>
    (buildEntries order generation inner).map fun (taken, own) => taken ++ own
  | sequence _ _ nodes => (takeAll order generation nodes).map fun lists => lists.reverse.flatten
  | again _ => .ok []
  | scalar .. | reference _ => .fault generation .malformed

def builtKey (order : SetOrder) (generation : Nat) (key : Node) : Built Value :=
  if key.tag == .value then
    match scalarText? key with
    | some text => .ok (.text text)
    | none => .fault generation .malformed
  else if key.tag.isCollection then .fault generation .malformed
  else build order generation key

theorem buildEntries_cons (order : SetOrder) (generation : Nat) (key value : Node)
    (rest : List (Node × Node)) :
    buildEntries order generation ((key, value) :: rest) =
      if key.tag == .merge then
        (taken order generation value).bind fun taken =>
          (buildEntries order generation rest).map fun (more, own) => (taken ++ more, own)
      else
        (buildEntries order generation rest).map fun (taken, own) =>
          (taken,
            Built.both Prod.mk (builtKey order generation key) (build order generation value) ::
              own) := by
  cases value <;> rfl

/-- All parts of the entries have a property. -/
def Pairs (p : Value → Prop) (entries : List (Built (Value × Value))) : Prop :=
  ∀ entry, .ok entry ∈ entries → entry.1.All p ∧ entry.2.All p

theorem Pairs.append {p : Value → Prop} {left right : List (Built (Value × Value))}
    (l : Pairs p left) (r : Pairs p right) : Pairs p (left ++ right) :=
  fun entry member => (List.mem_append.mp member).elim (l entry) (r entry)

-- One case per constructor; what is taken over is built of the nodes under the key that merges.
mutual

theorem all_build (order : SetOrder) (generation : Nat) : (node : Node) →
    ∀ v, node.build order generation = .ok v → v.All Value.IsCanonical
  | scalar tag text, v, built => by
    rw [build] at built
    split at built
    next => cases built
    next => exact Scalar.all_value (mapError_eq_ok_iff.mp built)
  | sequence _ tag items, v, built => by
    have pairs : (Built.all (buildPairs order (generation + 1) items)).map Value.list = .ok v →
        v.All Value.IsCanonical := by
      intro built
      obtain ⟨made, all, rfl⟩ := map_eq_ok_iff.mp built
      exact Value.all_list trivial fun w member =>
        all_buildPairs order (generation + 1) items w (Built.ok_mem_of_all all w member)
    cases tag with
    | seq =>
      obtain ⟨made, all, rfl⟩ := map_eq_ok_iff.mp built
      exact Value.all_list trivial fun w member =>
        all_buildAll order (generation + 1) items w (Built.ok_mem_of_all all w member)
    | omap | pairs => exact pairs built
    | _ => cases built
  | mapping _ tag entries, v, built => by
    have pairs : ∀ made, ((buildEntries order (generation + 1) entries).bind fun (taken, own) =>
        Built.all (taken ++ own)) = .ok made →
          ∀ entry ∈ made, entry.1.All Value.IsCanonical ∧ entry.2.All Value.IsCanonical := by
      intro made all entry member
      obtain ⟨⟨taken, own⟩, parted, all⟩ := bind_eq_ok_iff.mp all
      obtain ⟨left, right⟩ := pairs_buildEntries order (generation + 1) entries taken own parted
      exact left.append right entry (Built.ok_mem_of_all all entry member)
    cases tag with
    | map =>
      obtain ⟨made, all, rfl⟩ := map_eq_ok_iff.mp built
      exact Value.all_dict trivial (Entries.forall_mem_ofList (pairs made all))
    | set =>
      obtain ⟨made, all, rfl⟩ := map_eq_ok_iff.mp built
      refine Value.all_setOf order (fun _ => trivial) fun w member => ?_
      obtain ⟨entry, inside, rfl⟩ := List.mem_map.mp member
      exact (pairs made all entry inside).1
    | seq | omap | pairs => cases built
    | _ =>
      unfold build at built
      dsimp only at built
      split at built
      next => exact Scalar.all_value (mapError_eq_ok_iff.mp built)
      next => cases built
  | again _, v, built | reference _, v, built => by
    cases built
    exact Value.all_of_not_isCollection rfl trivial
termination_by structural node => node

theorem all_buildAll (order : SetOrder) (generation : Nat) : (nodes : List Node) →
    ∀ v, .ok v ∈ buildAll order generation nodes → v.All Value.IsCanonical
  | [], v, member => by cases member
  | node :: nodes, v, member => by
    rcases List.mem_cons.mp member with same | later
    · exact all_build order generation node v same.symm
    · exact all_buildAll order generation nodes v later
termination_by structural nodes => nodes

theorem all_buildPairs (order : SetOrder) (generation : Nat) : (nodes : List Node) →
    ∀ v, .ok v ∈ buildPairs order generation nodes → v.All Value.IsCanonical
  | [], v, member => by cases member
  | mapping _ _ [(key, value)] :: nodes, v, member => by
    rcases List.mem_cons.mp member with same | later
    · obtain ⟨k, builtKey, w, builtValue, rfl⟩ := Built.both_eq_ok_iff.mp same.symm
      have first := all_build order generation key k builtKey
      have second := all_build order generation value w builtValue
      exact Value.all_tuple trivial (by simpa using ⟨first, second⟩)
    · exact all_buildPairs order generation nodes v later
  | scalar .. :: nodes, v, member | sequence .. :: nodes, v, member
  | mapping _ _ [] :: nodes, v, member | mapping _ _ (_ :: _ :: _) :: nodes, v, member
  | reference _ :: nodes, v, member | again _ :: nodes, v, member => by
    rcases List.mem_cons.mp member with same | later
    · cases same
    · exact all_buildPairs order generation nodes v later
termination_by structural nodes => nodes

theorem pairs_taken (order : SetOrder) (generation : Nat) : (node : Node) → ∀ entries,
    taken order generation node = .ok entries → Pairs Value.IsCanonical entries
  | scalar .., _, made | reference _, _, made => by cases made
  | again _, _, made => by
    cases made
    exact nofun
  | sequence _ _ nodes, _, made => by
    obtain ⟨lists, all, rfl⟩ := map_eq_ok_iff.mp made
    intro entry member
    obtain ⟨list, inside, member⟩ := List.mem_flatten.mp member
    exact pairs_takeAll order generation nodes lists all list (List.mem_reverse.mp inside) entry
      member
  | mapping _ _ inner, _, made => by
    obtain ⟨⟨taken, own⟩, parted, rfl⟩ := map_eq_ok_iff.mp made
    obtain ⟨left, right⟩ := pairs_buildEntries order generation inner taken own parted
    exact left.append right
termination_by structural node => node

theorem pairs_buildEntries (order : SetOrder) (generation : Nat) : (entries : List (Node × Node)) →
    ∀ taken own, buildEntries order generation entries = .ok (taken, own) →
      Pairs Value.IsCanonical taken ∧ Pairs Value.IsCanonical own
  | [], taken, own, built => by
    cases built
    exact ⟨nofun, nofun⟩
  | (key, value) :: rest, taken, own, built => by
    rw [buildEntries_cons] at built
    split at built
    next =>
      obtain ⟨first, made, built⟩ := bind_eq_ok_iff.mp built
      obtain ⟨⟨more, later⟩, others, same⟩ := map_eq_ok_iff.mp built
      obtain ⟨rfl, rfl⟩ := Prod.mk.inj same
      obtain ⟨left, right⟩ := pairs_buildEntries order generation rest more later others
      exact ⟨(pairs_taken order generation value first made).append left, right⟩
    next =>
      obtain ⟨⟨more, later⟩, others, same⟩ := map_eq_ok_iff.mp built
      obtain ⟨rfl, rfl⟩ := Prod.mk.inj same
      obtain ⟨left, right⟩ := pairs_buildEntries order generation rest more later others
      refine ⟨left, fun entry member => ?_⟩
      rcases List.mem_cons.mp member with same | later
      · obtain ⟨k, givesKey, w, givesValue, rfl⟩ := Built.both_eq_ok_iff.mp same.symm
        refine ⟨?_, all_build order generation value w givesValue⟩
        unfold builtKey at givesKey
        split at givesKey
        next =>
          split at givesKey
          next =>
            cases givesKey
            exact Value.all_of_not_isCollection rfl trivial
          next => cases givesKey
        next =>
          split at givesKey
          next => cases givesKey
          next => exact all_build order generation key k givesKey
      · exact right entry later
termination_by structural entries => entries

theorem pairs_takeAll (order : SetOrder) (generation : Nat) : (nodes : List Node) →
    ∀ lists, takeAll order generation nodes = .ok lists →
      ∀ list ∈ lists, Pairs Value.IsCanonical list
  | [], lists, built => by
    cases built
    nofun
  | mapping _ _ inner :: nodes, lists, built => by
    rw [takeAll] at built
    obtain ⟨⟨taken, own⟩, parted, built⟩ := bind_eq_ok_iff.mp built
    obtain ⟨more, others, rfl⟩ := map_eq_ok_iff.mp built
    obtain ⟨left, right⟩ := pairs_buildEntries order generation inner taken own parted
    exact List.forall_mem_cons.mpr
      ⟨left.append right, pairs_takeAll order generation nodes more others⟩
  | again _ :: nodes, lists, built => pairs_takeAll order generation nodes lists built
  | scalar .. :: nodes, lists, built | sequence .. :: nodes, lists, built
  | reference _ :: nodes, lists, built => by cases built
termination_by structural nodes => nodes

end

end Node

/-- Each number that a document gives has its one form. -/
theorem all_of_load {order : SetOrder} {cs : List Char} {v : Value}
    (loaded : load order cs = .ok v) : v.All Value.IsCanonical := by
  unfold load at loaded
  split at loaded
  next =>
    obtain ⟨node?, _, loaded⟩ := bind_eq_ok_iff.mp loaded
    cases node? with
    | none =>
      cases loaded
      exact Value.all_of_not_isCollection rfl trivial
    | some node => exact Node.all_build order 0 node v (mapError_eq_ok_iff.mp loaded)
  next => cases loaded

end Yaml

end Deployments
