import Deployments.Proofs.Record.Fields
import Deployments.Proofs.Yaml.Values

/-!
Documents that are the same but for one place. Their values are then the same but for that place,
if both have one, whatever stands in the rest of them.
-/

namespace Deployments

open Reading

/-- The values are the same but for what stands at a place. -/
inductive Value.Swapped (a b : Value) : List Place → Value → Value → Prop where
  | here : Swapped a b [] a b
  | item {path : List Place} {v w : Value} (before after : List Value) : Swapped a b path v w →
    Swapped a b (.position before.length :: path) (.list (before ++ v :: after))
      (.list (before ++ w :: after))
  | entry {path : List Place} {v w : Value} {s : Text} {before : Entries} (after : Entries) :
    before.field? s = none → Swapped a b path v w →
    Swapped a b (.name s :: path) (.dict (before ++ (.text s, v) :: after))
      (.dict (before ++ (.text s, w) :: after))

namespace Value.Swapped

variable {a b v w : Value} {path : List Place}

theorem exists_items {i : Int} (swapped : Swapped a b (.position i :: path) v w) :
    ∃ before after x y, i = before.length ∧ v = .list (before ++ x :: after) ∧
      w = .list (before ++ y :: after) ∧ Swapped a b path x y := by
  cases swapped with
  | item before after inner => exact ⟨before, after, _, _, rfl, rfl, rfl, inner⟩

theorem exists_entries {s : Text} (swapped : Swapped a b (.name s :: path) v w) :
    ∃ before after x y, Entries.field? s before = none ∧
      v = .dict (before ++ (.text s, x) :: after) ∧
      w = .dict (before ++ (.text s, y) :: after) ∧ Swapped a b path x y := by
  cases swapped with
  | entry after first inner => exact ⟨_, after, _, _, first, rfl, rfl, inner⟩

end Value.Swapped

/-! ### Entries -/

theorem Value.sameKey_text_iff {key : Value} {s : Text} :
    key.sameKey (.text s) = true ↔ key = .text s := by
  cases key <;> simp [sameKey, sameAtom, numberKey?]

theorem Value.text_sameKey_iff {key : Value} {s : Text} :
    (text s).sameKey key = true ↔ key = .text s := by
  cases key with
  | text t => simp [sameKey, sameAtom, numberKey?, @eq_comm _ s t]
  | _ => simp [sameKey, sameAtom, numberKey?]

namespace Entries

variable {s : Text} {key : Value} {before : Entries}

theorem field?_cons_eq_none_iff {v : Value} {rest : Entries} :
    field? s ((key, v) :: rest) = none ↔ key ≠ .text s ∧ rest.field? s = none := by
  by_cases same : key = .text s
  · simp [same, field?_cons_self]
  · simp [same, field?_cons_of_ne]

theorem exists_insert (entries : Entries) (s : Text) :
    ∃ before after, field? s before = none ∧
      ∀ v, entries.insert (.text s) v = before ++ (.text s, v) :: after := by
  induction entries with
  | nil => exact ⟨[], [], rfl, fun _ => rfl⟩
  | cons entry rest ih =>
    obtain ⟨key, old⟩ := entry
    by_cases same : key = .text s
    · subst same
      exact ⟨[], rest, rfl, fun v => if_pos (Value.sameKey_text_iff.mpr rfl)⟩
    · obtain ⟨before, after, first, inserted⟩ := ih
      refine ⟨(key, old) :: before, after, field?_cons_eq_none_iff.mpr ⟨same, first⟩, fun v => ?_⟩
      rw [insert, if_neg (mt Value.sameKey_text_iff.mp same), inserted, List.cons_append]

/-- What is put under another key leaves the entry where it stands. -/
theorem exists_insert_of_ne (other : key ≠ .text s) (first : before.field? s = none)
    (after : Entries) (u : Value) :
    ∃ front back, field? s front = none ∧
      ∀ v, insert (before ++ (.text s, v) :: after) key u = front ++ (.text s, v) :: back := by
  induction before with
  | nil =>
    refine ⟨[], after.insert key u, rfl, fun v => ?_⟩
    rw [List.nil_append, insert, if_neg (mt Value.text_sameKey_iff.mp other), List.nil_append]
  | cons entry rest ih =>
    obtain ⟨name, old⟩ := entry
    obtain ⟨apart, later⟩ := field?_cons_eq_none_iff.mp first
    by_cases same : name.sameKey key = true
    · refine ⟨(name, u) :: rest, after, field?_cons_eq_none_iff.mpr ⟨apart, later⟩, fun v => ?_⟩
      rw [List.cons_append, insert, if_pos same, List.cons_append]
    · obtain ⟨front, back, none_, inserted⟩ := ih later
      refine ⟨(name, old) :: front, back, field?_cons_eq_none_iff.mpr ⟨apart, none_⟩, fun v => ?_⟩
      rw [List.cons_append, insert, if_neg same, inserted, List.cons_append]

/-- What is put under other keys leaves the entry where it stands. -/
theorem exists_foldl_insert {later : List (Value × Value)}
    (others : ∀ entry ∈ later, entry.1 ≠ .text s) (first : before.field? s = none)
    (after : Entries) :
    ∃ front back, field? s front = none ∧
      ∀ v, later.foldl (fun made entry => insert made entry.1 entry.2)
        (before ++ (.text s, v) :: after) = front ++ (.text s, v) :: back := by
  induction later generalizing before after with
  | nil => exact ⟨before, after, first, fun _ => rfl⟩
  | cons entry later ih =>
    rw [List.forall_mem_cons] at others
    obtain ⟨front, back, none_, inserted⟩ := exists_insert_of_ne others.1 first after entry.2
    obtain ⟨front, back, none_, made⟩ := ih others.2 none_ back
    refine ⟨front, back, none_, fun v => ?_⟩
    rw [List.foldl_cons, inserted, made]

/-- The last of the entries under a key gives the value, at a place that does not depend on it. -/
theorem exists_ofList {later : List (Value × Value)} (earlier : List (Value × Value))
    (others : ∀ entry ∈ later, entry.1 ≠ .text s) :
    ∃ before after, field? s before = none ∧
      ∀ v, ofList (earlier ++ (.text s, v) :: later) = before ++ (.text s, v) :: after := by
  obtain ⟨before, after, first, inserted⟩ := exists_insert (ofList earlier) s
  obtain ⟨front, back, none_, made⟩ := exists_foldl_insert others first after
  refine ⟨front, back, none_, fun v => ?_⟩
  rw [ofList, List.foldl_append, List.foldl_cons, ← ofList, inserted, made]

end Entries

namespace Yaml.Node

/-- The documents are the same but for what stands at a place. Under the keys that lead to it
nothing is given a second time. -/
inductive Swapped (x y : Node) : List Place → Node → Node → Prop where
  | here : Swapped x y [] x y
  | item {path : List Place} {number : Nat} {v w : Node} (before after : List Node) :
    Swapped x y path v w →
    Swapped x y (.position before.length :: path) (.sequence number .seq (before ++ v :: after))
      (.sequence number .seq (before ++ w :: after))
  | entry {path : List Place} {number : Nat} {v w : Node} {s : Text}
    {after : List (Node × Node)} (before : List (Node × Node)) :
    (∀ entry ∈ after, ∀ order generation, builtKey order generation entry.1 ≠ .ok (.text s)) →
    Swapped x y path v w →
    Swapped x y (.name s :: path)
      (.mapping number .map (before ++ (.scalar .str s, v) :: after))
      (.mapping number .map (before ++ (.scalar .str s, w) :: after))

variable {x y v w : Node} {path : List Place} {order : SetOrder} {generation number : Nat}

theorem Swapped.symm (swapped : Swapped x y path v w) : Swapped y x path w v := by
  induction swapped with
  | here => exact .here
  | item before after _ ih => exact .item before after ih
  | entry before others _ ih => exact .entry before others ih

/-- Each of the documents has its own part at the place. -/
theorem Swapped.right (swapped : Swapped x y path v w) : Swapped y y path w w := by
  induction swapped with
  | here => exact .here
  | item before after _ ih => exact .item before after ih
  | entry before others _ ih => exact .entry before others ih

theorem build_scalar_eq_ok_iff {tag : Tag} {text : Text} {value : Value} :
    build order generation (.scalar tag text) = .ok value ↔ Scalar.value tag text = .ok value := by
  rw [build]
  split
  next collection =>
    cases tag with
    | seq | map | set | omap | pairs => exact iff_of_false nofun nofun
    | _ => cases collection
  next => exact mapError_eq_ok_iff

theorem buildAll_eq_map (order : SetOrder) (generation : Nat) (nodes : List Node) :
    buildAll order generation nodes = nodes.map (build order generation) := by
  induction nodes with
  | nil => rfl
  | cons node nodes ih => rw [buildAll, ih, List.map_cons]

theorem build_seq (order : SetOrder) (generation number : Nat) (items : List Node) :
    build order generation (.sequence number .seq items) =
      (Built.all (items.map (build order (generation + 1)))).map .list := by
  rw [← buildAll_eq_map]
  rfl

theorem build_map (order : SetOrder) (generation number : Nat) (entries : List (Node × Node)) :
    build order generation (.mapping number .map entries) =
      ((buildEntries order (generation + 1) entries).bind fun (taken, own) =>
        Built.all (taken ++ own)).map fun made => .dict (Entries.ofList made) := rfl

/-- The entries that a mapping gives of its own are those of its keys. -/
theorem exists_key_of_buildEntries {entries : List (Node × Node)}
    {taken own : List (Built (Value × Value))}
    (built : buildEntries order generation entries = .ok (taken, own)) :
    ∀ made, .ok made ∈ own → ∃ entry ∈ entries, builtKey order generation entry.1 = .ok made.1 := by
  induction entries generalizing taken own with
  | nil =>
    cases built
    intro made member
    cases member
  | cons entry rest ih =>
    obtain ⟨key, value⟩ := entry
    intro made member
    rw [buildEntries_cons] at built
    split at built
    next =>
      obtain ⟨_, _, built⟩ := bind_eq_ok_iff.mp built
      obtain ⟨⟨more, later⟩, others, same⟩ := map_eq_ok_iff.mp built
      obtain ⟨rfl, rfl⟩ := Prod.mk.inj same
      obtain ⟨entry, inside, found⟩ := ih others made member
      exact ⟨entry, List.mem_cons_of_mem _ inside, found⟩
    next =>
      obtain ⟨⟨more, later⟩, others, same⟩ := map_eq_ok_iff.mp built
      obtain ⟨rfl, rfl⟩ := Prod.mk.inj same
      rcases List.mem_cons.mp member with same | behind
      · obtain ⟨k, found, _, _, rfl⟩ := Built.both_eq_ok_iff.mp same.symm
        exact ⟨(key, value), List.mem_cons_self, found⟩
      · obtain ⟨entry, inside, found⟩ := ih others made behind
        exact ⟨entry, List.mem_cons_of_mem _ inside, found⟩

/-- What the other entries of a mapping give does not depend on the value of one of them. -/
theorem exists_buildEntries {before after : List (Node × Node)} {s : Text}
    {taken own : List (Built (Value × Value))}
    (built : buildEntries order generation (before ++ (.scalar .str s, w) :: after) =
      .ok (taken, own)) :
    ∃ front back,
      (∀ v, buildEntries order generation (before ++ (.scalar .str s, v) :: after) =
        .ok (taken,
          front ++ Built.both Prod.mk (.ok (.text s)) (build order generation v) :: back)) ∧
      ∀ made, .ok made ∈ back →
        ∃ entry ∈ after, builtKey order generation entry.1 = .ok made.1 := by
  induction before generalizing taken own with
  | nil =>
    rw [List.nil_append, buildEntries_cons] at built
    obtain ⟨⟨more, later⟩, others, same⟩ := map_eq_ok_iff.mp built
    obtain ⟨rfl, rfl⟩ := Prod.mk.inj same
    refine ⟨[], later, fun v => ?_, exists_key_of_buildEntries others⟩
    rw [List.nil_append, buildEntries_cons, others]
    rfl
  | cons entry rest ih =>
    obtain ⟨key, value⟩ := entry
    rw [List.cons_append, buildEntries_cons] at built
    split at built
    next merges =>
      obtain ⟨first, made, built⟩ := bind_eq_ok_iff.mp built
      obtain ⟨⟨more, later⟩, others, same⟩ := map_eq_ok_iff.mp built
      obtain ⟨rfl, rfl⟩ := Prod.mk.inj same
      obtain ⟨front, back, all, keys⟩ := ih others
      refine ⟨front, back, fun v => ?_, keys⟩
      rw [List.cons_append, buildEntries_cons, if_pos merges, made, all]
      rfl
    next plain =>
      obtain ⟨⟨more, later⟩, others, same⟩ := map_eq_ok_iff.mp built
      obtain ⟨rfl, rfl⟩ := Prod.mk.inj same
      obtain ⟨front, back, all, keys⟩ := ih others
      refine ⟨Built.both Prod.mk (builtKey order generation key) (build order generation value) ::
        front, back, fun v => ?_, keys⟩
      rw [List.cons_append, buildEntries_cons, if_neg plain, all]
      rfl

/-- Of the items of a sequence each is built alone. -/
theorem exists_build_seq {before after : List Node} {whole : Value}
    (built : build order generation (.sequence number .seq (before ++ w :: after)) = .ok whole) :
    ∃ front back item, front.length = before.length ∧ whole = .list (front ++ item :: back) ∧
      build order (generation + 1) w = .ok item ∧
      ∀ v other, build order (generation + 1) v = .ok other →
        build order generation (.sequence number .seq (before ++ v :: after)) =
          .ok (.list (front ++ other :: back)) := by
  rw [build_seq] at built
  obtain ⟨items, all, rfl⟩ := map_eq_ok_iff.mp built
  rw [Built.all_eq_ok_iff, List.map_append, List.map_cons] at all
  obtain ⟨front, rest, rfl, first, all⟩ := List.map_eq_append_iff.mp all.symm
  obtain ⟨item, back, rfl, own, last⟩ := List.map_eq_cons_iff.mp all
  have length := congrArg List.length first
  rw [List.length_map, List.length_map] at length
  refine ⟨front, back, item, length, rfl, own.symm, fun v other made => ?_⟩
  have parts : (before ++ v :: after).map (build order (generation + 1)) =
      (front ++ other :: back).map .ok := by
    simp [made, first, last]
  rw [build_seq, Built.all_eq_ok_iff.mpr parts]
  rfl

/-- Of the values of a mapping each is built alone, and the place of the last one under a key does
not depend on it. -/
theorem exists_build_map {before after : List (Node × Node)} {s : Text} {whole : Value}
    (others : ∀ entry ∈ after, ∀ order generation,
      builtKey order generation entry.1 ≠ .ok (.text s))
    (built : build order generation
      (.mapping number .map (before ++ (.scalar .str s, w) :: after)) = .ok whole) :
    ∃ front back value, Entries.field? s front = none ∧
      whole = .dict (front ++ (.text s, value) :: back) ∧
      build order (generation + 1) w = .ok value ∧
      ∀ v other, build order (generation + 1) v = .ok other →
        build order generation (.mapping number .map (before ++ (.scalar .str s, v) :: after)) =
          .ok (.dict (front ++ (.text s, other) :: back)) := by
  rw [build_map] at built
  obtain ⟨made, all, rfl⟩ := map_eq_ok_iff.mp built
  obtain ⟨⟨taken, own⟩, parted, all⟩ := bind_eq_ok_iff.mp all
  obtain ⟨left, right, parts, keys⟩ := exists_buildEntries parted
  obtain rfl := (Prod.mk.inj (Except.ok.inj (parted.symm.trans (parts w)))).2
  rw [Built.all_eq_ok_iff, ← List.append_assoc] at all
  obtain ⟨earlier, rest, rfl, first, all⟩ := List.map_eq_append_iff.mp all.symm
  obtain ⟨entry, later, rfl, own, last⟩ := List.map_eq_cons_iff.mp all
  obtain ⟨_, same, value, found, rfl⟩ := Built.both_eq_ok_iff.mp own.symm
  cases same
  have behind : ∀ entry ∈ later, entry.1 ≠ .text s := by
    intro entry member same
    have inside : .ok entry ∈ right := last ▸ List.mem_map_of_mem member
    obtain ⟨key, there, made⟩ := keys entry inside
    exact others key there _ _ (made.trans (congrArg Except.ok same))
  obtain ⟨front, back, none_, listed⟩ := Entries.exists_ofList earlier behind
  refine ⟨front, back, value, none_, congrArg Value.dict (listed value), found,
    fun v other made => ?_⟩
  have whole : taken ++ (left ++ Built.both Prod.mk (.ok (.text s))
      (build order (generation + 1) v) :: right) =
        (earlier ++ (.text s, other) :: later).map .ok := by
    rw [← List.append_assoc, ← first, ← last, made, List.map_append, List.map_cons]
    rfl
  rw [build_map, parts, ← listed]
  simp only [Except.bind, Built.all_eq_ok_iff.mpr whole]
  rfl

/-- If one of two documents has a value, then the other one has one as soon as what stands at the
place has one. -/
theorem Swapped.exists_build (swapped : Swapped x y path v w) {whole : Value}
    (built : w.build order generation = .ok whole) :
    ∃ b, y.build order (generation + path.length) = .ok b ∧
      ∀ a, x.build order (generation + path.length) = .ok a →
        ∃ other, v.build order generation = .ok other ∧ Value.Swapped a b path other whole := by
  induction swapped generalizing generation whole with
  | here => exact ⟨whole, built, fun a found => ⟨a, found, .here⟩⟩
  | item before after _ ih =>
    obtain ⟨front, back, item, length, rfl, own, rebuilt⟩ := exists_build_seq built
    obtain ⟨b, given, others⟩ := ih own
    rw [List.length_cons, Nat.add_comm _ 1, ← Nat.add_assoc, ← length]
    refine ⟨b, given, fun a found => ?_⟩
    obtain ⟨other, made, swapped⟩ := others a found
    exact ⟨_, rebuilt _ other made, .item front back swapped⟩
  | entry before last _ ih =>
    obtain ⟨front, back, value, none_, rfl, own, rebuilt⟩ := exists_build_map last built
    obtain ⟨b, given, others⟩ := ih own
    rw [List.length_cons, Nat.add_comm _ 1, ← Nat.add_assoc]
    refine ⟨b, given, fun a found => ?_⟩
    obtain ⟨other, made, swapped⟩ := others a found
    exact ⟨_, rebuilt _ other made, .entry back none_ swapped⟩

end Yaml.Node

end Deployments
