import Deployments.Proofs.Record.Rewritten

/-!
Raw records written in another way. The order of keys does not count, and neither do keys that no
field has; a field may be given under any of its keys, which then says where its defects stand.
-/

namespace Deployments

open Reading Renaming

namespace Entries

variable {entries others : Entries} {name : Text} {v : Value}

/-- No name is a key twice. -/
def NamedOnce (entries : Entries) : Prop :=
  entries.Pairwise fun first later => ∀ s, first.1 = .text s → later.1 ≠ .text s

theorem NamedOnce.of_perm (once : entries.NamedOnce) (perm : entries.Perm others) :
    others.NamedOnce := by
  refine (perm.pairwise_iff fun {first later} apart s mine its => ?_).mp once
  exact apart s its mine

theorem field?_eq_some_iff (once : entries.NamedOnce) :
    entries.field? name = some v ↔ (.text name, v) ∈ entries := by
  induction entries with
  | nil => simp [field?]
  | cons entry rest ih =>
    obtain ⟨key, w⟩ := entry
    obtain ⟨apart, once⟩ := List.pairwise_cons.mp once
    by_cases own : key = .text name
    · subst own
      rw [field?_cons_self, List.mem_cons]
      refine ⟨fun same => .inl (by rw [Option.some.inj same]), ?_⟩
      rintro (same | later)
      · cases same
        rfl
      · exact absurd rfl (apart _ later name rfl)
    · rw [field?_cons_of_ne own, ih once, List.mem_cons]
      refine ⟨.inr, ?_⟩
      rintro (same | later)
      · cases same
        exact absurd rfl own
      · exact later

theorem field?_of_perm (once : entries.NamedOnce) (perm : entries.Perm others) (name : Text) :
    others.field? name = entries.field? name := by
  ext v
  rw [field?_eq_some_iff once, field?_eq_some_iff (once.of_perm perm), perm.mem_iff]

end Entries

/-- The entries of a record written in another way: in another order, with a key more or less that
no field has, with a field under another of its keys, or without the second key of a field that is
given under its own. -/
inductive Rephrased : RecordStep where
  | reordered {kind : RecordKind} {entries others : Entries} :
    entries.NamedOnce → entries.Perm others → Rephrased kind [] entries others
  | added {kind : RecordKind} (before : Entries) {after : Entries} {key v : Value} :
    (∀ name ∈ kind.keys, key ≠ .text name) →
      Rephrased kind [] (before ++ after) (before ++ (key, v) :: after)
  | removed {kind : RecordKind} (before : Entries) {after : Entries} {key v : Value} :
    (∀ name ∈ kind.keys, key ≠ .text name) →
      Rephrased kind [] (before ++ (key, v) :: after) (before ++ after)
  | renamed {kind : RecordKind} {field : RecordField} {old new : Text} (before : Entries)
    {after : Entries} {v : Value} :
    field ∈ kind.fields → old ∈ field.keys → new ∈ field.keys →
      (∀ key ∈ field.keys, (before ++ after).field? key = none) →
      Rephrased kind [⟨[], old, new⟩] (before ++ (.text old, v) :: after)
        (before ++ (.text new, v) :: after)
  | dropped {kind : RecordKind} {field : RecordField} {other : Text} (before : Entries)
    {after : Entries} {v : Value} :
    field ∈ kind.fields → other ∈ field.reader.alternative →
      (before ++ after).field? field.reader.key ≠ none →
      Rephrased kind [] (before ++ (.text other, v) :: after) (before ++ after)

namespace RecordKind

variable {kind : RecordKind} {field : RecordField} {before after : Entries} {v : Value}
  {old new other : Text}

theorem read_renamed (member : field ∈ kind.fields) (mine : old ∈ field.keys)
    (its : new ∈ field.keys) (alone : ∀ key ∈ field.keys, (before ++ after).field? key = none) :
    kind.read (.dict (before ++ (.text new, v) :: after)) =
      (kind.read (.dict (before ++ (.text old, v) :: after))).mapPaths
        (along [⟨[], old, new⟩]) := by
  refine kind.read_mapPaths fun found its' => ?_
  by_cases own : found = field
  · subst own
    refine FieldReader.get_mapPaths (FieldReader.given?_between mine alone v)
      (FieldReader.given?_between its alone v) (fun inner => ?_) (Checked.mapPaths_id _).symm
    rw [along_single, if_pos rfl, id]
  · refine FieldReader.get_mapPaths_self (fun key named => ?_) fun key named inner => ?_
    · rw [Entries.field?_between_of_ne (text_ne_of_ne member its' own its named),
        Entries.field?_between_of_ne (text_ne_of_ne member its' own mine named)]
    · have apart := text_ne_of_ne member its' own mine named
      rw [along_single, if_neg fun same => apart (by rw [same])]

theorem read_dropped (member : field ∈ kind.fields) (second : other ∈ field.reader.alternative)
    (given : (before ++ after).field? field.reader.key ≠ none) :
    kind.read (.dict (before ++ after)) =
      kind.read (.dict (before ++ (.text other, v) :: after)) := by
  have mine : other ∈ field.keys := List.mem_cons_of_mem _ (Option.mem_toList.mpr second)
  refine kind.read_congr fun found its => ?_
  by_cases own : found = field
  · subst own
    obtain ⟨w, under⟩ := Option.ne_none_iff_exists'.mp given
    have beside := (Entries.field?_between_of_ne (v := v) (text_ne_key member second)).trans under
    rw [FieldReader.get_of_given (FieldReader.given?_own under),
      FieldReader.get_of_given (FieldReader.given?_own beside)]
  · refine FieldReader.get_congr fun key named => ?_
    exact (Entries.field?_between_of_ne (text_ne_of_ne member its own mine named)).symm

end RecordKind

theorem Rephrased.sound : Rephrased.Sound := by
  intro kind renamings entries others rephrased
  cases rephrased with
  | reordered once perm =>
    rw [Checked.mapPaths_along_nil]
    exact kind.read_eq_of_field? fun key _ => Entries.field?_of_perm once perm key
  | added _ foreign =>
    rw [Checked.mapPaths_along_nil]
    exact kind.read_eq_of_field? fun key own => Entries.field?_between_of_ne (foreign key own)
  | removed _ foreign =>
    rw [Checked.mapPaths_along_nil]
    refine kind.read_eq_of_field? fun key own => ?_
    exact (Entries.field?_between_of_ne (foreign key own)).symm
  | renamed _ member mine its alone => exact RecordKind.read_renamed member mine its alone
  | dropped _ member second given =>
    rw [Checked.mapPaths_along_nil]
    exact RecordKind.read_dropped member second given

/-- A record that is written in another way, at any depth, is read as the same record, stopped by
the same fault, or refused for the same causes in the same order; the places of these differ only in
the names of the keys that have been given another name. -/
theorem RecordKind.read_rephrased (kind : RecordKind) (renamings : List Renaming) (v w : Value)
    (rewritten : Rewritten Rephrased (.record kind) renamings v w) :
    kind.read w = (kind.read v).mapPaths (along renamings) ∧
      (renamings = [] → kind.read w = kind.read v) := by
  have same := rewritten.read Rephrased.sound
  refine ⟨same, ?_⟩
  rintro rfl
  rwa [Checked.mapPaths_along_nil] at same

theorem Rephrased.identity (v : Value) :
    Rephrased .machine [⟨[], "vm_cid", "vm_id"⟩] [(.text "vm_cid", v)] [(.text "vm_id", v)] := by
  refine .renamed [] RecordKind.idField_mem ?_ ?_ ?_
  · decide
  · decide
  · decide

/-- A defect of a machine moves with its key, in an entry with its keys in another order. -/
theorem RecordKind.read_rephrased_of_entry :
    let machine : Value := .record [("vm_cid", .int 5), ("note", .null)]
    let v : Value := .record [("name", .text "a"), ("instances", .list [machine])]
    let machine' : Value := .record [("vm_id", .int 5)]
    let w : Value := .record [("instances", .list [machine']), ("name", .text "a")]
    Rewritten Rephrased (.record .entry)
        [⟨[.name "instances", .position 0], "vm_cid", "vm_id"⟩] v w ∧
      Inventory.Entry.read v =
        .invalid [⟨[.name "instances", .position 0, .name "vm_cid"], .textType⟩] ∧
      Inventory.Entry.read w =
        .invalid [⟨[.name "instances", .position 0, .name "vm_id"], .textType⟩] := by
  intro machine v machine' w
  have foreign : ("note" : Text) ∉ RecordKind.machine.keys := by decide
  have removed : Rephrased .machine [] [(.text "vm_cid", .int 5), (.text "note", .null)]
      [(.text "vm_cid", .int 5)] :=
    .removed [_] fun name own same => foreign (Value.text.inj same ▸ own)
  have inside : Rewritten Rephrased (.record .entry)
      [⟨[.name "instances", .position 0], "vm_cid", "vm_id"⟩] v
      (.record [("name", .text "a"), ("instances", .list [machine'])]) :=
    .field [_] RecordKind.instancesField_mem rfl rfl
      (.item [] (.inl rfl) (.trans (.step removed) (.step (.identity _))))
  have reordered : Rephrased .entry []
      [(.text "name", .text "a"), (.text "instances", .list [machine'])]
      [(.text "instances", .list [machine']), (.text "name", .text "a")] :=
    .reordered (by simp [Entries.NamedOnce]) (.swap _ _ _)
  have rewritten := Rewritten.trans inside (.step reordered)
  have own : Inventory.Entry.read v =
    .invalid [⟨[.name "instances", .position 0, .name "vm_cid"], .textType⟩] := rfl
  refine ⟨rewritten, own, ?_⟩
  exact (RecordKind.read_rephrased _ _ _ _ rewritten).1.trans (congrArg _ own)

/-- The outcome does not stay the same if a field is given under another of its keys: a defect
stands under the key that is there. -/
theorem RecordKind.not_read_eq_of_rephrased :
    ¬ ∀ kind renamings v w, Rewritten Rephrased (.record kind) renamings v w →
      kind.read w = kind.read v := by
  intro unchanged
  have same := unchanged _ _ _ _ (.step (.identity (.int 5)))
  have own : Record.Machine.read (.dict [(.text "vm_cid", .int 5)]) =
    .invalid [⟨[.name "vm_cid"], .textType⟩] := rfl
  have other : Record.Machine.read (.dict [(.text "vm_id", .int 5)]) =
    .invalid [⟨[.name "vm_id"], .textType⟩] := rfl
  rw [RecordKind.read, own, other] at same
  simp at same

end Deployments
