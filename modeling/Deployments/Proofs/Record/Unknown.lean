import Deployments.Proofs.Reading.Replaced
import Deployments.Proofs.Record.Blanked

/-!
Vitals that become unknown. If vitals of a machine are replaced by null or by the empty text, then
the machine is still read, and its record changes at their places only. How long something has been
up is the exception: it may be null, but not the empty text.
-/

namespace Deployments

open Reading Decimal

namespace Record

def IsUnknown (v : Value) : Prop := v = .null ∨ v = .text ""

/-- What an unknown vital is in a record. -/
def IsNothing (v : Value) : Prop := v = .null ∨ v = .int 0 ∨ v = .float noNumber

/-- If a value that is read becomes unknown at some places, then it is still read, and what is read
differs at these places only. -/
def Follows {α : Type} (places : Places) (read : Value → Checked α) (write : α → Value)
    (fine : Value → Prop) : Prop :=
  ∀ v w a, Replaced IsUnknown places v w → fine w → read v = .ok a →
    ∃ b, read w = .ok b ∧ Replaced IsNothing places (write a) (write b)

/-- The entries become unknown at some places. -/
abbrev Blanks (places : Places) (entries others : Entries) : Prop :=
  List.Forall₂ (fun entry other => entry.1 = other.1 ∧
    Replaced IsUnknown (places.withinKey entry.1) entry.2 other.2) entries others

namespace Follows

variable {α : Type} {places : Places} {read : Value → Checked α} {write : α → Value}
  {fine : Value → Prop}

theorem single (plain : ∀ v a, read v = .ok a → v.isCollection = false)
    (unknown : ∀ w, IsUnknown w → fine w → ∃ b, read w = .ok b ∧ IsNothing (write b)) :
    Follows places read write fine := by
  intro v w a replaced fine done
  cases replaced with
  | same => exact ⟨a, done, .same⟩
  | new here blank =>
    obtain ⟨b, read, nothing⟩ := unknown w blank fine
    exact ⟨b, read, .new here nothing⟩
  | row rows => cases (plain v a done).symm.trans (Value.isCollection_of_areRows rows).1
  | dict => cases plain _ a done

theorem forall₂ {rows : Nat → Places} (each : ∀ i, Follows (rows i) read write fine)
    {raw others : List Value} {items : List α} (length : raw.length = others.length)
    (replaced : ∀ (i : Nat) (v w : Value), raw[i]? = some v → others[i]? = some w →
      Replaced IsUnknown (rows i) v w)
    (all : ∀ w ∈ others, fine w) (done : List.Forall₂ (fun v a => read v = .ok a) raw items) :
    ∃ found, List.Forall₂ (fun w b => read w = .ok b) others found ∧ items.length = found.length ∧
      ∀ (i : Nat) (a b : α), items[i]? = some a → found[i]? = some b →
        Replaced IsNothing (rows i) (write a) (write b) := by
  induction done generalizing others rows with
  | nil =>
    cases List.length_eq_zero_iff.mp length.symm
    exact ⟨[], .nil, rfl, nofun⟩
  | @cons v a raw items head tail ih =>
    obtain ⟨w, others, rfl⟩ := List.exists_cons_of_length_eq_add_one length.symm
    rw [List.forall_mem_cons] at all
    obtain ⟨b, first, same⟩ := each 0 v w a (replaced 0 v w rfl rfl) all.1 head
    have behind (i : Nat) (v w : Value) (left : raw[i]? = some v) (right : others[i]? = some w) :
        Replaced IsUnknown (rows (i + 1)) v w := replaced (i + 1) v w left right
    obtain ⟨found, rest, size, later⟩ :=
      ih (fun i => each (i + 1)) (Nat.succ.inj length) behind all.2
    refine ⟨b :: found, .cons first rest, congrArg Nat.succ size, fun i c d left right => ?_⟩
    cases i with
    | zero =>
      cases left
      cases right
      exact same
    | succ i => exact later i c d left right

end Follows

theorem replaced_list {α : Type} {places : Places} {write : α → Value} {items found : List α}
    (size : items.length = found.length)
    (each : ∀ (i : Nat) (a b : α), items[i]? = some a → found[i]? = some b →
      Replaced IsNothing (places.within (.position i)) (write a) (write b)) :
    Replaced IsNothing places (.list (items.map write)) (.list (found.map write)) := by
  refine .row rfl (by simpa [Value.listed] using size) fun i v w left right => ?_
  simp only [Value.listed, List.getElem?_map, Option.map_eq_some_iff] at left right
  obtain ⟨a, left, rfl⟩ := left
  obtain ⟨b, right, rfl⟩ := right
  exact each i a b left right

namespace Follows

variable {α : Type} {places : Places} {read : Value → Checked α} {write : α → Value}
  {fine : Value → Prop}

theorem list (whole : ¬ places [])
    (each : ∀ i : Nat, Follows (places.within (.position i)) read write fine) :
    Follows places (list read) (fun items => .list (items.map write))
      fun w => ∀ item ∈ w.listed, fine item := by
  intro v w items replaced all done
  have walked := forall₂_listed done
  cases replaced with
  | same => exact ⟨items, done, .same⟩
  | new here => exact absurd here whole
  | row rows length replaced =>
    obtain ⟨found, rest, size, later⟩ := forall₂ each length replaced all walked
    refine ⟨found, ?_, replaced_list size later⟩
    rw [Value.list_of_areRows rows]
    exact Checked.items_eq_ok_iff.mpr rest
  | dict => cases done

theorem nullAs (whole : ¬ places []) (follows : Follows places read write fine) (stand : Value) :
    Follows places (fun v => read (nullAs stand v)) write fine := by
  intro v w a replaced fine done
  by_cases given : v = .null
  · subst given
    have same : w = .null := by
      cases replaced with
      | same => rfl
      | new here => exact absurd here whole
      | row rows => cases rows
    subst same
    exact ⟨a, done, .same⟩
  · have given' : w ≠ .null := by
      rintro rfl
      cases replaced with
      | same => exact given rfl
      | new here => exact whole here
      | row rows => cases (Value.isCollection_of_areRows rows).2
    beta_reduce at done ⊢
    rw [nullAs_of_ne given] at done
    obtain ⟨b, read, same⟩ := follows v w a replaced fine done
    exact ⟨b, by rwa [nullAs_of_ne given'], same⟩

theorem record {title : String} {fields : Entries → Checked α} (whole : ¬ places [])
    (given : ∀ entries others a, Blanks places entries others → fine (.dict others) →
      fields entries = .ok a →
      ∃ b, fields others = .ok b ∧ Replaced IsNothing places (write a) (write b)) :
    Follows places (record title fields) write fine := by
  intro v w a replaced fine done
  obtain ⟨entries, rfl, done⟩ := exists_entries_of_record done
  obtain ⟨others, rfl, all⟩ := replaced.exists_entries whole
  exact given entries others a all fine done

theorem get {key : Text} {absent : α}
    (follows : Follows (places.within (.name key)) read write fine)
    {entries others : Entries} (all : Blanks places entries others)
    (fine : ∀ w, (Value.dict others).at? key = some w → fine w) {a : α}
    (done : (FieldReader.optional key absent read).get entries = .ok a) :
    ∃ b, (FieldReader.optional key absent read).get others = .ok b ∧
      Replaced IsNothing (places.within (.name key)) (write a) (write b) := by
  rcases Replaced.field? all key with ⟨missing, missing'⟩ | ⟨v, w, given, given', replaced⟩
  · have same : (FieldReader.optional key absent read).get others =
        (FieldReader.optional key absent read).get entries :=
      FieldReader.get_congr (List.forall_mem_singleton.mpr (missing'.trans missing.symm))
    exact ⟨a, same.trans done, .same⟩
  · rw [FieldReader.get_of_given (FieldReader.given?_own given), Checked.under_eq_ok_iff] at done
    obtain ⟨b, read, same⟩ := follows v w a replaced (fine w given') done
    refine ⟨b, ?_, same⟩
    rw [FieldReader.get_of_given (FieldReader.given?_own given'), Checked.under_eq_ok_iff]
    exact read

end Follows

/-! ### Single vitals -/

section Single

variable {places : Places}

theorem follows_vital : Follows places vital .float fun _ => True := by
  refine .single (fun v x done => ?_) fun w unknown _ => ?_
  · cases v <;> first | rfl | cases done
  · rcases unknown with rfl | rfl <;> exact ⟨noNumber, rfl, .inr (.inr rfl)⟩

theorem follows_measure :
    Follows places (fun v => integer (blankAsZero v)) .int fun _ => True := by
  refine .single (fun v n done => ?_) fun w unknown _ => ?_
  · cases v <;> first | rfl | cases done
  · rcases unknown with rfl | rfl <;> exact ⟨0, rfl, .inr (.inl rfl)⟩

theorem follows_secs : Follows places (optional integer) (fun x => (x.map .int).getD .null)
    fun w => w ≠ .text "" := by
  refine .single (fun v x done => ?_) fun w unknown filled => ?_
  · cases v <;> first | rfl | cases done
  · rcases unknown with rfl | rfl
    · exact ⟨none, rfl, .inl rfl⟩
    · exact absurd rfl filled

end Single

/-! ### Records -/

/-- The text is empty that says how long something has been up. -/
def IsEmptied (uptime : Value) : Prop := uptime.at? "secs" = some (.text "")

section Records

variable {places : Places}

theorem Uptime.follows (whole : ¬ places []) :
    Follows places read toValue fun w => ¬ IsEmptied w := by
  refine .record whole fun entries others r all filled done => ?_
  simp only [Checked.eq_ok_iff_exists (a := r), Checked.exists_map_iff] at done ⊢
  obtain ⟨_, secs, rfl⟩ := done
  have filled : ∀ w, (Value.dict others).at? "secs" = some w → w ≠ .text "" := by
    rintro _ given rfl
    exact filled given
  obtain ⟨_, secs, kept⟩ := follows_secs.get all filled secs
  exact ⟨_, secs, .record (.cons ⟨rfl, kept⟩ .nil)⟩

theorem Cpu.follows (whole : ¬ places []) : Follows places read toValue fun _ => True := by
  refine .record whole fun entries others r all _ done => ?_
  simp only [Checked.eq_ok_iff_exists (a := r), Checked.exists_seq_iff,
    Checked.exists_map_iff] at done ⊢
  obtain ⟨_, sys, _, user, _, wait, rfl⟩ := done
  obtain ⟨_, sys, kept⟩ := follows_vital.get all (fun _ _ => trivial) sys
  obtain ⟨_, user, kept'⟩ := follows_vital.get all (fun _ _ => trivial) user
  obtain ⟨_, wait, kept''⟩ := follows_vital.get all (fun _ _ => trivial) wait
  refine ⟨_, sys, _, user, _, wait, ?_⟩
  exact .record (.cons ⟨rfl, kept⟩ (.cons ⟨rfl, kept'⟩ (.cons ⟨rfl, kept''⟩ .nil)))

theorem Mem.follows (whole : ¬ places []) : Follows places read toValue fun _ => True := by
  refine .record whole fun entries others r all _ done => ?_
  simp only [Checked.eq_ok_iff_exists (a := r), Checked.exists_seq_iff,
    Checked.exists_map_iff] at done ⊢
  obtain ⟨_, kb, _, percent, rfl⟩ := done
  obtain ⟨_, kb, kept⟩ := follows_vital.get all (fun _ _ => trivial) kb
  obtain ⟨_, percent, kept'⟩ := follows_vital.get all (fun _ _ => trivial) percent
  exact ⟨_, kb, _, percent, .record (.cons ⟨rfl, kept⟩ (.cons ⟨rfl, kept'⟩ .nil))⟩

theorem Disk.follows (whole : ¬ places []) : Follows places read toValue fun _ => True := by
  refine .record whole fun entries others r all _ done => ?_
  simp only [Checked.eq_ok_iff_exists (a := r), Checked.exists_seq_iff,
    Checked.exists_map_iff] at done ⊢
  obtain ⟨_, inode, _, percent, rfl⟩ := done
  obtain ⟨_, inode, kept⟩ := follows_vital.get all (fun _ _ => trivial) inode
  obtain ⟨_, percent, kept'⟩ := follows_vital.get all (fun _ _ => trivial) percent
  exact ⟨_, inode, _, percent, .record (.cons ⟨rfl, kept⟩ (.cons ⟨rfl, kept'⟩ .nil))⟩

theorem ProcessCpu.follows (whole : ¬ places []) : Follows places read toValue fun _ => True := by
  refine .record whole fun entries others r all _ done => ?_
  simp only [Checked.eq_ok_iff_exists (a := r), Checked.exists_map_iff] at done ⊢
  obtain ⟨_, total, rfl⟩ := done
  obtain ⟨_, total, kept⟩ := follows_vital.get all (fun _ _ => trivial) total
  exact ⟨_, total, .record (.cons ⟨rfl, kept⟩ .nil)⟩

theorem ProcessMem.follows (whole : ¬ places []) : Follows places read toValue fun _ => True := by
  refine .record whole fun entries others r all _ done => ?_
  simp only [Checked.eq_ok_iff_exists (a := r), Checked.exists_seq_iff,
    Checked.exists_map_iff] at done ⊢
  obtain ⟨_, kb, _, percent, rfl⟩ := done
  obtain ⟨_, kb, kept⟩ := follows_measure.get all (fun _ _ => trivial) kb
  obtain ⟨_, percent, kept'⟩ := follows_vital.get all (fun _ _ => trivial) percent
  exact ⟨_, kb, _, percent, .record (.cons ⟨rfl, kept⟩ (.cons ⟨rfl, kept'⟩ .nil))⟩

/-- Load averages are replaced one by one, if at all. -/
theorem Vitals.follows_load (whole : ¬ places []) :
    Follows places readLoad (fun load => .list (load.map .float)) fun _ => True := by
  intro v w load replaced _ done
  cases replaced with
  | same => exact ⟨load, done, .same⟩
  | new here => exact absurd here whole
  | row rows length replaced =>
    rw [readLoad_of_items (Value.items?_of_areRows rows).1, Checked.items_eq_ok_iff] at done
    obtain ⟨found, rest, size, later⟩ :=
      Follows.forall₂ (fun _ => follows_vital) length replaced (fun _ _ => trivial) done
    refine ⟨found, ?_, replaced_list size later⟩
    rw [readLoad_of_items (Value.items?_of_areRows rows).2, Checked.items_eq_ok_iff]
    exact rest
  | @dict _ entries others keys _ =>
    -- A mapping is walked through by its keys, which stay.
    rw [readLoad_of_items rfl, keys] at done
    exact ⟨load, (readLoad_of_items rfl).trans done, .same⟩

namespace Disks

/-- Both disks have one name, and they differ at some places under it only. -/
def Alike (places : Places) (entry other : Text × Disk) : Prop :=
  entry.1 = other.1 ∧
    Replaced IsNothing (places.within (.name entry.1)) entry.2.toValue other.2.toValue

theorem alike_insert {disks others : Disks} (all : List.Forall₂ (Alike places) disks others)
    {name : Text} {disk other : Disk} (alike : Alike places (name, disk) (name, other)) :
    List.Forall₂ (Alike places) (insert disks name disk) (insert others name other) := by
  induction all with
  | nil => exact .cons alike .nil
  | @cons first second disks others head tail ih =>
    rw [insert, insert, ← head.1]
    split
    · exact .cons alike tail
    · exact .cons head ih

theorem alike_foldl {given given' disks others : Disks}
    (new : List.Forall₂ (Alike places) given given')
    (all : List.Forall₂ (Alike places) disks others) :
    List.Forall₂ (Alike places)
      (given.foldl (fun disks entry => insert disks entry.1 entry.2) disks)
      (given'.foldl (fun disks entry => insert disks entry.1 entry.2) others) := by
  induction new generalizing disks others with
  | nil => exact all
  | @cons entry other given given' head _ ih =>
    obtain ⟨name, disk⟩ := entry
    obtain ⟨_, disk'⟩ := other
    obtain ⟨rfl, kept⟩ := head
    exact ih (alike_insert all ⟨rfl, kept⟩)

theorem readEntries_follows (each : ∀ name, ¬ places [.name name]) {entries others : Entries}
    (all : Blanks places entries others) {given : Disks} (done : readEntries entries = .ok given) :
    ∃ given', readEntries others = .ok given' ∧ List.Forall₂ (Alike places) given given' := by
  induction all generalizing given with
  | nil =>
    cases done
    exact ⟨[], rfl, .nil⟩
  | @cons entry other entries others head _ ih =>
    obtain ⟨key, v⟩ := entry
    obtain ⟨_, w⟩ := other
    obtain ⟨rfl, replaced⟩ := head
    simp only [readEntries, Checked.eq_ok_iff_exists (a := given), Checked.exists_seq_iff,
      Checked.exists_map_iff] at done ⊢
    obtain ⟨name, named, disk, read, rest, later, rfl⟩ := done
    have own : text key = .ok name :=
      Checked.under_eq_ok_iff.mp (Checked.under_eq_ok_iff.mp named)
    rw [Places.withinKey_of_text own] at replaced
    obtain ⟨disk', read', kept⟩ := Disk.follows (each name) v w disk replaced trivial
      (Checked.under_eq_ok_iff.mp read)
    obtain ⟨rest', later', alike⟩ := ih later
    exact ⟨name, named, disk', Checked.under_eq_ok_iff.mpr read', rest', later',
      .cons ⟨rfl, kept⟩ alike⟩

theorem follows (whole : ¬ places []) (each : ∀ name, ¬ places [.name name]) :
    Follows places read (fun disks => .record (disks.map fun entry => (entry.1, entry.2.toValue)))
      fun _ => True := by
  intro v w disks replaced _ done
  unfold read at done
  split at done
  next entries =>
    obtain ⟨others, rfl, all⟩ := replaced.exists_entries whole
    obtain ⟨given, read, rfl⟩ := Checked.map_eq_ok_iff.mp done
    obtain ⟨given', read', alike⟩ := readEntries_follows each all read
    refine ⟨_, Checked.map_eq_ok_iff.mpr ⟨given', read', rfl⟩, .record ?_⟩
    exact List.forall₂_map_left_iff.mpr (List.forall₂_map_right_iff.mpr (alike_foldl alike .nil))
  next => cases done

end Disks

theorem Vitals.follows (whole : ¬ places []) (each : ∀ key, ¬ places [.name key])
    (disks : ∀ name, ¬ places [.name "disk", .name name]) :
    Follows places read toValue
      fun w => ∀ uptime, w.at? "uptime" = some uptime → ¬ IsEmptied uptime := by
  refine .record whole fun entries others r all filled done => ?_
  simp only [Checked.eq_ok_iff_exists (a := r), Checked.exists_seq_iff,
    Checked.exists_map_iff] at done ⊢
  obtain ⟨_, cpu, _, mem, _, swap, _, uptime, _, load, _, disk, rfl⟩ := done
  obtain ⟨_, cpu, cpu'⟩ := (Cpu.follows (each "cpu")).get all (fun _ _ => trivial) cpu
  obtain ⟨_, mem, mem'⟩ := (Mem.follows (each "mem")).get all (fun _ _ => trivial) mem
  obtain ⟨_, swap, swap'⟩ := (Mem.follows (each "swap")).get all (fun _ _ => trivial) swap
  obtain ⟨_, uptime, uptime'⟩ := (Uptime.follows (each "uptime")).get all filled uptime
  obtain ⟨_, load, load'⟩ := (Vitals.follows_load (each "load")).get all (fun _ _ => trivial) load
  obtain ⟨_, disk, disk'⟩ :=
    (Disks.follows (each "disk") disks).get all (fun _ _ => trivial) disk
  refine ⟨_, cpu, _, mem, _, swap, _, uptime, _, load, _, disk, .record ?_⟩
  exact .cons ⟨rfl, cpu'⟩ (.cons ⟨rfl, mem'⟩ (.cons ⟨rfl, swap'⟩ (.cons ⟨rfl, uptime'⟩
    (.cons ⟨rfl, load'⟩ (.cons ⟨rfl, disk'⟩ .nil)))))

/-- A field under whose keys nothing becomes unknown is read as before. -/
theorem get_of_apart {α : Type} {f : FieldReader α} {entries others : Entries}
    (all : Blanks places entries others)
    (apart : ∀ key ∈ f.keys, ∀ inner, ¬ places (.name key :: inner)) :
    f.get others = f.get entries := by
  refine FieldReader.get_congr fun key own => ?_
  rcases Replaced.field? all key with ⟨missing, missing'⟩ | ⟨v, w, given, given', replaced⟩
  · rw [missing, missing']
  · rw [given, given', replaced.eq_of_none (apart key own)]

theorem Process.follows (whole : ¬ places []) (each : ∀ key, ¬ places [.name key])
    (apart : ∀ key ∈ (["name", "state"] : List Text), ∀ inner, ¬ places (.name key :: inner)) :
    Follows places read toValue
      fun w => ∀ uptime, w.at? "uptime" = some uptime → ¬ IsEmptied uptime := by
  refine .record whole fun entries others r all filled done => ?_
  simp only [Checked.eq_ok_iff_exists (a := r), Checked.exists_seq_iff,
    Checked.exists_map_iff] at done ⊢
  obtain ⟨_, name, _, state, _, uptime, _, cpu, _, mem, rfl⟩ := done
  rw [get_of_apart all (f := .required "name" text)
      (List.forall_mem_singleton.mpr (apart "name" (by decide))),
    get_of_apart all (f := .optional "state" ("" : Text) text)
      (List.forall_mem_singleton.mpr (apart "state" (by decide)))]
  obtain ⟨_, uptime, uptime'⟩ := (Uptime.follows (each "uptime")).get all filled uptime
  obtain ⟨_, cpu, cpu'⟩ := (ProcessCpu.follows (each "cpu")).get all (fun _ _ => trivial) cpu
  obtain ⟨_, mem, mem'⟩ := (ProcessMem.follows (each "mem")).get all (fun _ _ => trivial) mem
  refine ⟨_, name, _, state, _, uptime, _, cpu, _, mem, .record ?_⟩
  exact .cons ⟨rfl, .same⟩ (.cons ⟨rfl, .same⟩ (.cons ⟨rfl, uptime'⟩ (.cons ⟨rfl, cpu'⟩
    (.cons ⟨rfl, mem'⟩ .nil))))

end Records

/-! ### Machines -/

namespace Machine

/-- Where the numbers of the vitals of a machine and of its processes stand. -/
inductive IsVital : Places where
  | cpu {key : Text} : key ∈ (["sys", "user", "wait"] : List Text) →
    IsVital [.name "vitals", .name "cpu", .name key]
  | mem {area key : Text} : area ∈ (["mem", "swap"] : List Text) →
    key ∈ (["kb", "percent"] : List Text) →
    IsVital [.name "vitals", .name area, .name key]
  | uptime : IsVital [.name "vitals", .name "uptime", .name "secs"]
  | load (i : Nat) : IsVital [.name "vitals", .name "load", .position i]
  | disk {key : Text} (name : Text) : key ∈ (["inode_percent", "percent"] : List Text) →
    IsVital [.name "vitals", .name "disk", .name name, .name key]
  | processUptime (i : Nat) :
    IsVital [.name "processes", .position i, .name "uptime", .name "secs"]
  | processCpu (i : Nat) : IsVital [.name "processes", .position i, .name "cpu", .name "total"]
  | processMem {key : Text} (i : Nat) : key ∈ (["kb", "percent"] : List Text) →
    IsVital [.name "processes", .position i, .name "mem", .name key]

theorem IsVital.length {path : List Place} (vital : IsVital path) : 3 ≤ path.length := by
  cases vital <;> simp

theorem IsVital.key {key : Text} {inner : List Place} (vital : IsVital (.name key :: inner)) :
    key ∈ (["vitals", "processes"] : List Text) := by
  cases vital <;> simp

theorem IsVital.process {i : Int} {inner : List Place}
    (vital : IsVital (.name "processes" :: .position i :: inner)) :
    ∃ key ∈ (["uptime", "cpu", "mem"] : List Text), ∃ last, inner = [.name key, last] := by
  generalize same : Place.name "processes" :: .position i :: inner = path at vital
  cases vital with
  | processUptime | processCpu | processMem =>
    obtain ⟨_, rfl⟩ := (List.cons.inj (List.cons.inj same).2)
    simp
  | _ => simp at same

theorem not_isVital_disk (name : Text) :
    ¬ IsVital [.name "vitals", .name "disk", .name name] := by
  intro vital
  generalize same : [Place.name "vitals", .name "disk", .name name] = path at vital
  cases vital with
  | mem area =>
    cases (List.cons.inj (List.cons.inj same).2).1
    simp at area
  | _ => simp at same

/-- A machine says, of itself or of a process, how long it has been up. -/
def GivesUptime (machine uptime : Value) : Prop :=
  (∃ vitals, machine.at? "vitals" = some vitals ∧ vitals.at? "uptime" = some uptime) ∨
    ∃ processes, machine.at? "processes" = some processes ∧
      ∃ process ∈ processes.listed, process.at? "uptime" = some uptime

theorem follows {places : Places} (vital : ∀ path, places path → IsVital path) :
    Follows places read toValue
      fun w => ∀ uptime, GivesUptime w uptime → ¬ IsEmptied uptime := by
  have short (path : List Place) (few : path.length < 3) : ¬ places path :=
    fun here => absurd (vital path here).length (Nat.not_le.mpr few)
  refine .record (short [] (by decide)) fun entries others r all filled done => ?_
  have kept {α : Type} (f : FieldReader α)
      (other : ∀ key ∈ f.keys, key ∉ (["vitals", "processes"] : List Text)) :
      f.get others = f.get entries :=
    get_of_apart all fun key own inner here => other key own (vital _ here).key
  simp only [Checked.eq_ok_iff_exists (a := r), Checked.exists_seq_iff,
    Checked.exists_map_iff] at done ⊢
  obtain ⟨_, agent, _, job, _, id, _, index, _, state, _, bootstrap, _, ips, _, az, _, vm, _, type,
    _, pool, _, paused, _, vitals, _, processes, rfl⟩ := done
  rw [kept (textField "agent_id") (by decide), kept (textField "job_name") (by decide),
    kept (textField "id") (by decide), kept (.optional "index" none (optional integer)) (by decide),
    kept ((textField "job_state").orUnder "process_state") (by decide),
    kept (.optional "bootstrap" false boolean) (by decide), kept (listField "ips" text) (by decide),
    kept (textField "az") (by decide), kept ((textField "vm_cid").orUnder "vm_id") (by decide),
    kept (textField "vm_type") (by decide), kept (textField "resource_pool") (by decide),
    kept (.optional "resurrection_paused" false boolean) (by decide)]
  have ofVitals : Follows (places.within (.name "vitals")) Vitals.read Vitals.toValue
      fun w => ∀ uptime, w.at? "uptime" = some uptime → ¬ IsEmptied uptime :=
    Vitals.follows (short _ (by decide)) (fun _ => short _ (by simp))
      fun name here => not_isVital_disk name (vital _ here)
  have ofProcess (i : Nat) : Follows ((places.within (.name "processes")).within (.position i))
      Process.read Process.toValue
      fun w => ∀ uptime, w.at? "uptime" = some uptime → ¬ IsEmptied uptime := by
    refine Process.follows (short _ (by simp)) (fun key here => ?_) fun key own inner here => ?_
    · obtain ⟨_, _, _, same⟩ := (vital _ here).process
      cases same
    · obtain ⟨key', member, _, same⟩ := (vital _ here).process
      cases (List.cons.inj same).1
      have distinct : ∀ key ∈ (["uptime", "cpu", "mem"] : List Text),
          key ∉ (["name", "state"] : List Text) := by decide
      exact distinct _ member own
  obtain ⟨_, vitals, vitals'⟩ :=
    (ofVitals.nullAs (short [.name "vitals"] (by decide)) (.dict [])).get all
    (fun w given uptime found => filled uptime (.inl ⟨w, given, found⟩)) vitals
  have whole := short [.name "processes"] (by decide)
  obtain ⟨_, processes, processes'⟩ := ((Follows.list whole ofProcess).nullAs whole (.list [])).get
    all (fun w given process member uptime found =>
      filled uptime (.inr ⟨w, given, process, member, found⟩)) processes
  refine ⟨_, agent, _, job, _, id, _, index, _, state, _, bootstrap, _, ips, _, az, _, vm, _, type,
    _, pool, _, paused, _, vitals, _, processes, .record ?_⟩
  repeat' first
    | exact List.Forall₂.nil
    | refine List.Forall₂.cons ⟨rfl, .same⟩ ?_
    | refine List.Forall₂.cons ⟨rfl, vitals'⟩ ?_
    | refine List.Forall₂.cons ⟨rfl, processes'⟩ ?_

end Machine

/-! ### What has been read -/

theorem read_of_at? {α : Type} {key : Text} {absent a : α} {read : Value → Checked α}
    {entries : Entries} {v : Value} (given : (Value.dict entries).at? key = some v)
    (done : (FieldReader.optional key absent read).get entries = .ok a) : read v = .ok a := by
  have own : entries.field? key = some v := given
  rw [FieldReader.get_of_given (FieldReader.given?_own own)] at done
  exact Checked.under_eq_ok_iff.mp done

theorem Uptime.not_isEmptied_of_read {uptime : Value} {r : Uptime} (done : read uptime = .ok r) :
    ¬ IsEmptied uptime := by
  intro emptied
  obtain ⟨entries, rfl, fields⟩ := exists_entries_of_record done
  obtain ⟨_, secs, _⟩ := Checked.map_eq_ok_iff.mp fields
  cases read_of_at? emptied secs

theorem Vitals.not_isEmptied_of_read {vitals uptime : Value} {r : Vitals}
    (done : read vitals = .ok r) (given : vitals.at? "uptime" = some uptime) :
    ¬ IsEmptied uptime := by
  obtain ⟨entries, rfl, fields⟩ := exists_entries_of_record done
  simp only [Checked.eq_ok_iff_exists (a := r), Checked.exists_seq_iff,
    Checked.exists_map_iff] at fields
  obtain ⟨_, _, _, _, _, _, _, secs, _⟩ := fields
  exact Uptime.not_isEmptied_of_read (read_of_at? given secs)

theorem Process.not_isEmptied_of_read {process uptime : Value} {r : Process}
    (done : read process = .ok r) (given : process.at? "uptime" = some uptime) :
    ¬ IsEmptied uptime := by
  obtain ⟨entries, rfl, fields⟩ := exists_entries_of_record done
  simp only [Checked.eq_ok_iff_exists (a := r), Checked.exists_seq_iff,
    Checked.exists_map_iff] at fields
  obtain ⟨_, _, _, _, _, secs, _⟩ := fields
  exact Uptime.not_isEmptied_of_read (read_of_at? given secs)

theorem Machine.not_isEmptied_of_read {machine uptime : Value} {r : Machine}
    (done : read machine = .ok r) (given : GivesUptime machine uptime) : ¬ IsEmptied uptime := by
  obtain ⟨entries, rfl, fields⟩ := exists_entries_of_record done
  simp only [Checked.eq_ok_iff_exists (a := r), Checked.exists_seq_iff,
    Checked.exists_map_iff] at fields
  obtain ⟨_, _, _, _, _, _, _, _, _, _, _, _, _, _, _, _, _, _, _, _, _, _, _, _, _, ofVitals, _,
    ofProcesses, _⟩ := fields
  rcases given with ⟨vitals, own, given⟩ | ⟨processes, own, process, member, given⟩
  · have walked : nullAs (.dict []) vitals = vitals := nullAs_of_ne (by rintro rfl; cases given) _
    have read := read_of_at? own ofVitals
    rw [walked] at read
    exact Vitals.not_isEmptied_of_read read given
  · have walked : nullAs (.list []) processes = processes :=
      nullAs_of_ne (by rintro rfl; cases member) _
    have read := read_of_at? own ofProcesses
    rw [walked] at read
    have all := Checked.isOk_of_forall₂ (forall₂_listed read) process member
    cases found : Process.read process with
    | ok r => exact Process.not_isEmptied_of_read found given
    | invalid | aborted => simp [found, Checked.isOk] at all

namespace Machine

/-- If vitals of a machine that is read become unknown, then it is still read with all else
unchanged, unless the text is empty that says how long it or a process has been up. -/
theorem read_unknown_iff {places : Places} (vital : ∀ path, places path → IsVital path)
    {v w : Value} (replaced : Replaced IsUnknown places v w) {r : Machine} (done : read v = .ok r) :
    (∃ r', read w = .ok r' ∧ Replaced IsNothing places r.toValue r'.toValue) ↔
      ∀ uptime, GivesUptime w uptime → ¬ IsEmptied uptime := by
  refine ⟨?_, fun filled => follows vital v w r replaced filled done⟩
  rintro ⟨r', read, _⟩ uptime given
  exact not_isEmptied_of_read read given

theorem read_unknown_of_cpu :
    let machine (user average : Value) : Value := .record [("az", .text "z1"),
      ("vitals", .record [("cpu", .record [("sys", .text "1.5"), ("user", user)]),
        ("load", .list [.int 1, average])])]
    ∃ r r', read (machine (.int 2) (.int 3)) = .ok r ∧
      read (machine (.text "") .null) = .ok r' ∧
      Replaced IsNothing IsVital r.toValue r'.toValue := by
  intro machine
  have replaced : Replaced IsUnknown IsVital (machine (.int 2) (.int 3))
      (machine (.text "") .null) := by
    refine .record (.cons ⟨rfl, .same⟩ (.cons ⟨rfl, .record ?_⟩ .nil))
    refine .cons ⟨rfl, .record ?_⟩ (.cons ⟨rfl, .row rfl rfl ?_⟩ .nil)
    · exact .cons ⟨rfl, .same⟩ (.cons ⟨rfl, .new (.cpu (by decide)) (.inr rfl)⟩ .nil)
    · rintro (_ | _ | _) item other left right <;> cases left <;> cases right
      · exact .same
      · exact .new (.load 1) (.inl rfl)
  have done : ∃ r, read (machine (.int 2) (.int 3)) = .ok r := ⟨_, rfl⟩
  obtain ⟨r, done⟩ := done
  have never : ∀ uptime, GivesUptime (machine (.text "") .null) uptime → ¬ IsEmptied uptime := by
    rintro uptime (⟨vitals, own, given⟩ | ⟨processes, own, _⟩)
    · cases own
      cases given
    · cases own
  obtain ⟨r', read, kept⟩ := (read_unknown_iff (fun _ here => here) replaced done).mpr never
  exact ⟨r, r', done, read, kept⟩

/-- A machine that says how long it has been up is refused once this is an empty text. -/
theorem not_read_of_emptied :
    let machine (secs : Value) : Value :=
      .record [("vitals", .record [("uptime", .record [("secs", secs)])])]
    Replaced IsUnknown IsVital (machine (.int 5)) (machine (.text "")) ∧
      (∃ r, read (machine (.int 5)) = .ok r) ∧
      read (machine (.text "")) =
        .invalid [⟨[.name "vitals", .name "uptime", .name "secs"], .integerText⟩] := by
  intro machine
  refine ⟨.record (.cons ⟨rfl, .record ?_⟩ .nil), ⟨_, rfl⟩, rfl⟩
  exact .cons ⟨rfl, .record (.cons ⟨rfl, .new .uptime (.inr rfl)⟩ .nil)⟩ .nil

end Machine

end Record

end Deployments
