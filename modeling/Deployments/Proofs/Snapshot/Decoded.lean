import Deployments.Proofs.Json.Ascii
import Deployments.Proofs.Json.Decoded
import Deployments.Proofs.Snapshot.Sorted

/-!
What the text of snapshots decodes to: an object for each of them, in the order in which they are
sorted, with the fields in the order in which they are declared. The snapshots can be told from it.
-/

namespace Deployments.Snapshot

open Decimal Json

/-! ### Snapshots as they are decoded -/

/-- A number stands as the text that is displayed for it. -/
def decodedNumber (x : Binary64) : Decoded := .decimal (NumberFormat.display.write x)

def decodedOption {α : Type} (f : α → Decoded) : Option α → Decoded
  | some a => f a
  | none => .null

def Errand.decoded (e : Errand) : Decoded := .object [("name", .text e.name)]

def Release.decoded (e : Release) : Decoded :=
  .object [("name", .text e.name), ("version", .text e.version)]

def Stemcell.decoded (e : Stemcell) : Decoded :=
  .object [("name", .text e.name), ("version", .text e.version), ("os_name", .text e.osName)]

def Cpu.decoded (e : Cpu) : Decoded :=
  .object [("sys", decodedNumber e.sys), ("user", decodedNumber e.user),
    ("wait", decodedNumber e.wait), ("total", decodedNumber e.total)]

def Mem.decoded (e : Mem) : Decoded :=
  .object [("kb", decodedNumber e.kb), ("percent", decodedNumber e.percent)]

def ProcessMem.decoded (e : ProcessMem) : Decoded :=
  .object [("kb", .integer e.kb), ("percent", decodedNumber e.percent)]

def Disk.decoded (e : Disk) : Decoded :=
  .object [("inode_percent", decodedNumber e.inodePercent), ("percent", decodedNumber e.percent)]

def Vitals.decoded (e : Vitals) : Decoded :=
  .object [("cpu", e.cpu.decoded), ("mem", e.mem.decoded), ("swap", e.swap.decoded),
    ("uptime", decodedOption .integer e.uptime), ("load", .list (e.load.map decodedNumber)),
    ("system_disk", e.systemDisk.decoded), ("ephemeral_disk", e.ephemeralDisk.decoded),
    ("persistent_disk", e.persistentDisk.decoded)]

def Process.decoded (e : Process) : Decoded :=
  .object [("name", .text e.name), ("uptime", decodedOption .integer e.uptime),
    ("healthy", .bool e.healthy), ("cpu", e.cpu.decoded), ("mem", e.mem.decoded)]

def Instance.decoded (e : Instance) : Decoded :=
  .object [("agent_id", .text e.agentId), ("name", .text e.name), ("id", .text e.id),
    ("bootstrap", .bool e.bootstrap), ("ips", .list (e.ips.map .text)), ("az", .text e.az),
    ("vm_type", .text e.vmType), ("resource_pool", .text e.resourcePool),
    ("resurrection_paused", .bool e.resurrectionPaused), ("healthy", .bool e.healthy),
    ("index", decodedOption .text e.index), ("processes", .list (e.processes.map (·.decoded))),
    ("vitals", e.vitals.decoded)]

def decoded (s : Snapshot Facet.Entry) : Decoded :=
  .object [("name", .text s.name), ("errands", .list (s.errands.map Errand.decoded)),
    ("instances", .list (s.instances.map Instance.decoded)),
    ("releases", .list (s.releases.map Release.decoded)),
    ("stemcells", .list (s.stemcells.map Stemcell.decoded))]

/-! ### The decoded document of a snapshot -/

theorem decoded_jsonOption {α : Type} {f : α → Json} {g : α → Decoded}
    (same : ∀ a, (f a).decoded = g a) (x : Option α) :
    (jsonOption f x).decoded = decodedOption g x := by
  cases x with
  | none => rfl
  | some a => exact same a

theorem map_decoded {α : Type} {f : α → Json} {g : α → Decoded}
    (same : ∀ a, (f a).decoded = g a) (items : List α) :
    (Json.list (items.map f)).decoded = .list (items.map g) := by
  rw [decoded_list, List.map_map]
  exact congrArg Decoded.list (List.map_congr_left fun a _ => same a)

theorem Errand.decoded_toJson (e : Errand) : e.toJson.decoded = e.decoded := rfl

theorem Release.decoded_toJson (e : Release) : e.toJson.decoded = e.decoded := rfl

theorem Stemcell.decoded_toJson (e : Stemcell) : e.toJson.decoded = e.decoded := rfl

theorem Vitals.decoded_toJson (e : Vitals) : e.toJson.decoded = e.decoded := by
  have uptime := decoded_jsonOption (f := .int) (g := .integer) (fun _ => rfl) e.uptime
  have load := map_decoded (f := .float) (g := decodedNumber) (fun _ => rfl) e.load
  simp only [toJson, decoded_object, List.map_cons, List.map_nil, uptime, load]
  rfl

theorem Process.decoded_toJson (e : Process) : e.toJson.decoded = e.decoded := by
  have uptime := decoded_jsonOption (f := .int) (g := .integer) (fun _ => rfl) e.uptime
  simp only [toJson, decoded_object, List.map_cons, List.map_nil, uptime]
  rfl

theorem Instance.decoded_toJson (e : Instance) : e.toJson.decoded = e.decoded := by
  have ips := map_decoded (f := .text) (g := .text) (fun _ => rfl) e.ips
  have index := decoded_jsonOption (f := .text) (g := .text) (fun _ => rfl) e.index
  have processes := map_decoded Process.decoded_toJson e.processes
  simp only [toJson, decoded_object, List.map_cons, List.map_nil, ips, index, processes,
    Vitals.decoded_toJson]
  rfl

theorem decoded_toJson (s : Snapshot Facet.Entry) : s.toJson.decoded = s.decoded := by
  have errands := map_decoded Errand.decoded_toJson s.errands
  have instances := map_decoded Instance.decoded_toJson s.instances
  have releases := map_decoded Release.decoded_toJson s.releases
  have stemcells := map_decoded Stemcell.decoded_toJson s.stemcells
  rw [decoded, ← errands, ← instances, ← releases, ← stemcells]
  rfl

/-! ### Snapshots as they come back -/

def Errand.joined (e : Errand) : Errand := ⟨e.name.joined⟩

def Release.joined (e : Release) : Release := ⟨e.name.joined, e.version.joined⟩

def Stemcell.joined (e : Stemcell) : Stemcell :=
  ⟨e.name.joined, e.version.joined, e.osName.joined⟩

def Process.joined (e : Process) : Process := { e with name := e.name.joined }

def Instance.joined (e : Instance) : Instance :=
  { e with
    agentId := e.agentId.joined
    name := e.name.joined
    id := e.id.joined
    ips := e.ips.map Text.joined
    az := e.az.joined
    vmType := e.vmType.joined
    resourcePool := e.resourcePool.joined
    index := e.index.map Text.joined
    processes := e.processes.map (·.joined) }

/-- The snapshot with its texts as JSON carries them. -/
def joined (s : Snapshot Facet.Entry) : Snapshot Facet.Entry :=
  ⟨s.name.joined, s.errands.map Errand.joined, s.instances.map Instance.joined,
    s.releases.map Release.joined, s.stemcells.map Stemcell.joined⟩

theorem map_toJson_joined {α : Type} {f : α → Json} {g : α → α}
    (same : ∀ a, (f a).joined = f (g a)) (items : List α) :
    (Json.list (items.map f)).joined = .list ((items.map g).map f) := by
  rw [joined_list, List.map_map, List.map_map]
  exact congrArg Json.list (List.map_congr_left fun a _ => same a)

theorem Errand.joined_toJson (e : Errand) : e.toJson.joined = e.joined.toJson := by
  simp [toJson, joined]

theorem Release.joined_toJson (e : Release) : e.toJson.joined = e.joined.toJson := by
  simp [toJson, joined]

theorem Stemcell.joined_toJson (e : Stemcell) : e.toJson.joined = e.joined.toJson := by
  simp [toJson, joined]

theorem joined_jsonOption_int (x : Option Int) :
    (jsonOption .int x).joined = jsonOption .int x := by
  cases x <;> rfl

theorem joined_jsonOption_text (x : Option Text) :
    (jsonOption .text x).joined = jsonOption .text (x.map Text.joined) := by
  cases x <;> rfl

/-- There are no texts in vitals but their keys. -/
theorem Vitals.joined_toJson (e : Vitals) : e.toJson.joined = e.toJson := by
  simp [toJson, joined_jsonOption_int, Cpu.toJson, Mem.toJson, Disk.toJson]

theorem Process.joined_toJson (e : Process) : e.toJson.joined = e.joined.toJson := by
  simp [toJson, joined, joined_jsonOption_int, Cpu.toJson, ProcessMem.toJson]

theorem Instance.joined_toJson (e : Instance) : e.toJson.joined = e.joined.toJson := by
  have processes := map_toJson_joined Process.joined_toJson e.processes
  have ips := map_toJson_joined (f := .text) (g := Text.joined) (fun _ => rfl) e.ips
  simp only [toJson, joined_object, List.map_cons, List.map_nil, joined_text, joined_bool, ips,
    processes, joined_jsonOption_text, Vitals.joined_toJson, Text.joined_ofString]
  rfl

theorem joined_entries (s : Snapshot Facet.Entry) (facet : Facet) :
    (Json.list ((s.get facet).map facet.entryJson)).joined =
      .list ((s.joined.get facet).map facet.entryJson) := by
  cases facet with
  | errands => exact map_toJson_joined Errand.joined_toJson s.errands
  | instances => exact map_toJson_joined Instance.joined_toJson s.instances
  | releases => exact map_toJson_joined Release.joined_toJson s.releases
  | stemcells => exact map_toJson_joined Stemcell.joined_toJson s.stemcells

theorem joined_toJson (s : Snapshot Facet.Entry) : s.toJson.joined = s.joined.toJson := by
  simp only [toJson, joined_object, List.map_cons, List.map_map, Function.comp_def, joined_text,
    Text.joined_ofString, joined_entries]
  rfl

theorem joined_map_toJson (snapshots : List (Snapshot Facet.Entry)) :
    (Json.list (snapshots.map toJson)).joined = .list ((snapshots.map joined).map toJson) :=
  map_toJson_joined joined_toJson snapshots

/-! ### Telling snapshots from their documents -/

theorem jsonOption_injective {α : Type} {f : α → Json} (injective : Function.Injective f)
    (given : ∀ a, f a ≠ .null) : Function.Injective (jsonOption f) := by
  rintro (_ | a) (_ | b) same
  · rfl
  · exact absurd same.symm (given b)
  · exact absurd same (given a)
  · exact congrArg some (injective same)

theorem Errand.toJson_injective : Function.Injective toJson := by
  rintro ⟨_⟩ ⟨_⟩ same
  simpa [toJson] using same

theorem Release.toJson_injective : Function.Injective toJson := by
  rintro ⟨_, _⟩ ⟨_, _⟩ same
  simpa [toJson] using same

theorem Stemcell.toJson_injective : Function.Injective toJson := by
  rintro ⟨_, _, _⟩ ⟨_, _, _⟩ same
  simpa [toJson] using same

theorem Cpu.toJson_injective : Function.Injective toJson := by
  rintro ⟨_, _, _, _⟩ ⟨_, _, _, _⟩ same
  simpa [toJson] using same

theorem Mem.toJson_injective : Function.Injective toJson := by
  rintro ⟨_, _⟩ ⟨_, _⟩ same
  simpa [toJson] using same

theorem ProcessMem.toJson_injective : Function.Injective toJson := by
  rintro ⟨_, _⟩ ⟨_, _⟩ same
  simpa [toJson] using same

theorem Disk.toJson_injective : Function.Injective toJson := by
  rintro ⟨_, _⟩ ⟨_, _⟩ same
  simpa [toJson] using same

theorem jsonOption_int_injective : Function.Injective (jsonOption .int) :=
  jsonOption_injective (fun _ _ => Json.int.inj) nofun

theorem Vitals.toJson_injective : Function.Injective toJson := by
  rintro ⟨_, _, _, _, _, _, _, _⟩ ⟨_, _, _, _, _, _, _, _⟩ same
  have load : Function.Injective (List.map Json.float) :=
    List.map_injective_iff.mpr fun _ _ => Json.float.inj
  simpa [toJson, Cpu.toJson_injective.eq_iff, Mem.toJson_injective.eq_iff,
    Disk.toJson_injective.eq_iff, jsonOption_int_injective.eq_iff, load.eq_iff] using same

theorem Process.toJson_injective : Function.Injective toJson := by
  rintro ⟨_, _, _, _, _⟩ ⟨_, _, _, _, _⟩ same
  simpa [toJson, Cpu.toJson_injective.eq_iff, ProcessMem.toJson_injective.eq_iff,
    jsonOption_int_injective.eq_iff] using same

theorem Instance.toJson_injective : Function.Injective toJson := by
  rintro ⟨_, _, _, _, _, _, _, _, _, _, _, _, _⟩ ⟨_, _, _, _, _, _, _, _, _, _, _, _, _⟩ same
  have ips : Function.Injective (List.map Json.text) :=
    List.map_injective_iff.mpr fun _ _ => Json.text.inj
  have index : Function.Injective (jsonOption .text) :=
    jsonOption_injective (fun _ _ => Json.text.inj) nofun
  have processes := List.map_injective_iff.mpr Process.toJson_injective
  simpa [toJson, Vitals.toJson_injective.eq_iff, ips.eq_iff, index.eq_iff, processes.eq_iff]
    using same

theorem entryJson_injective (facet : Facet) : Function.Injective facet.entryJson := by
  cases facet with
  | errands => exact Errand.toJson_injective
  | instances => exact Instance.toJson_injective
  | releases => exact Release.toJson_injective
  | stemcells => exact Stemcell.toJson_injective

theorem toJson_injective : Function.Injective toJson := by
  rintro ⟨_, _, _, _, _⟩ ⟨_, _, _, _, _⟩ same
  have entries (facet : Facet) : Function.Injective (List.map facet.entryJson) :=
    List.map_injective_iff.mpr (entryJson_injective facet)
  simpa [toJson, Facet.all, get, (entries _).eq_iff] using same

/-! ### The text of snapshots -/

/-- All numbers of the snapshots are finite, and no integer has too many digits. -/
structure Printable (snapshots : List (Snapshot Facet.Entry)) : Prop where
  finite : ∀ s ∈ snapshots, s.toJson.Numbers IsShown
  short : ∀ s ∈ snapshots, s.toJson.IsWritable

namespace Printable

variable {snapshots others : List (Snapshot Facet.Entry)} (printable : Printable snapshots)

include printable

theorem of_subset (subset : others ⊆ snapshots) : Printable others :=
  ⟨fun s member => printable.finite s (subset member),
    fun s member => printable.short s (subset member)⟩

theorem sorted : Printable (sorted snapshots) :=
  printable.of_subset (isStableSort_sorted snapshots).perm.subset

theorem numbers : (Json.list (snapshots.map toJson)).Numbers IsShown :=
  numbers_list.mpr (List.forall_mem_map.mpr printable.finite)

theorem numbers_joined : (Json.list ((snapshots.map joined).map toJson)).Numbers IsShown :=
  joined_map_toJson snapshots ▸ Json.numbers_joined printable.numbers

theorem exists_render : ∃ text, render snapshots = .ok text := by
  rw [render, exists_render_iff, isWritable_list]
  exact List.forall_mem_map.mpr printable.sorted.short

end Printable

/-- The text of snapshots is ASCII and decodes to their stable sort by name, in which halves that
stand side by side are put together; all snapshots that are sorted otherwise, even with their halves
put together, have another text. -/
theorem decodes_to_stable_sort {snapshots : List (Snapshot Facet.Entry)}
    (printable : Printable snapshots) :
    ∃ text arranged, render snapshots = .ok text ∧ IsAscii text.toList ∧
      IsStableSort snapshots arranged ∧
      decode? text = some (.list ((arranged.map joined).map decoded)) ∧
      ∀ others arranged', Printable others → IsStableSort others arranged' →
        (render others = .ok text ↔ arranged'.map joined = arranged.map joined) := by
  obtain ⟨text, rendered⟩ := printable.exists_render
  have found := decode?_of_render printable.sorted.numbers rendered
  rw [joined_map_toJson] at found
  refine ⟨text, _, rendered, isAscii_of_render printable.sorted.numbers rendered,
    isStableSort_sorted snapshots, ?_, ?_⟩
  · rw [found, map_decoded decoded_toJson]
  · intro others arranged' printable' stable
    obtain rfl := isStableSort_iff.mp stable
    constructor
    · intro rendered'
      -- Both texts are one, so what they decode to is one, and that tells the snapshots.
      have found' := decode?_of_render printable'.sorted.numbers rendered'
      rw [joined_map_toJson] at found'
      have documents := eq_of_decoded printable'.sorted.numbers_joined
        printable.sorted.numbers_joined (Option.some.inj (found'.symm.trans found))
      exact List.map_injective_iff.mpr toJson_injective (Json.list.inj documents)
    · intro same
      rw [render, ← render_joined, joined_map_toJson, same, ← joined_map_toJson, render_joined]
      exact rendered

/-- The number 0.1. -/
def tenth : Binary64 := .ofDecimal false 1 (-1)

def quietVitals : Vitals :=
  let none_ := Binary64.zero false
  ⟨⟨none_, none_, tenth, none_⟩, ⟨none_, none_⟩, ⟨none_, none_⟩, none, [tenth, .ofInt (-3)],
    ⟨none_, none_⟩, ⟨none_, none_⟩, ⟨none_, none_⟩⟩

/-- An instance with one process, whose texts have characters that are escaped. -/
def escapedInstance : Instance :=
  ⟨"\x22\\", "\x7f", "é", true, ["10.0.0.1", ""], "z\n", "😀", "", false, true, some "0",
    [⟨"p", some (-7), true, quietVitals.cpu, ⟨42, tenth⟩⟩], quietVitals⟩

def escapedSnapshot : Snapshot Facet.Entry := ⟨"b", [], [escapedInstance], [], []⟩

def errandAlone : Snapshot Facet.Entry := ⟨"a", [⟨"e"⟩], [], [], []⟩

def releaseAlone : Snapshot Facet.Entry := ⟨"b", [], [], [⟨"r", "1"⟩], []⟩

theorem escaped_decodes_to_stable_sort :
    Printable [escapedSnapshot, errandAlone, releaseAlone] ∧
      ∃ text, render [escapedSnapshot, errandAlone, releaseAlone] = .ok text ∧
        IsAscii text.toList ∧
        decode? text = some (.list ([errandAlone, escapedSnapshot, releaseAlone].map decoded)) ∧
        render [releaseAlone, errandAlone, escapedSnapshot] ≠ .ok text := by
  have shown : IsShown tenth ∧ IsShown (.zero false) ∧ IsShown (.ofInt (-3)) :=
    ⟨⟨Binary64.canonical_ofDecimal _ _ _, by decide⟩, ⟨Binary64.canonical_zero false, rfl⟩,
      ⟨Binary64.canonical_ofInt _, by decide⟩⟩
  have writable : Writable (-7) ∧ Writable 42 := by decide
  have printable : Printable [escapedSnapshot, errandAlone, releaseAlone] := by
    constructor <;>
      simp [escapedSnapshot, errandAlone, releaseAlone, escapedInstance, quietVitals, toJson,
        Facet.all, get, Facet.entryJson, Errand.toJson, Release.toJson, Instance.toJson,
        Process.toJson, Vitals.toJson, Cpu.toJson, Mem.toJson, ProcessMem.toJson, Disk.toJson,
        jsonOption, numbers_list, numbers_object, IsWritable, shown, writable]
  have printable' : Printable [releaseAlone, errandAlone, escapedSnapshot] :=
    printable.of_subset (by simp)
  obtain ⟨text, arranged, rendered, ascii, stable, found, apart⟩ := decodes_to_stable_sort printable
  have names : Text.inOrder "a" "b" = true ∧ Text.inOrder "b" "a" = false := by decide
  have order : sorted [escapedSnapshot, errandAlone, releaseAlone] =
      [errandAlone, escapedSnapshot, releaseAlone] := by
    simp [sorted, List.mergeSort, escapedSnapshot, errandAlone, releaseAlone, names,
      Text.inOrder_refl]
  have order' : sorted [releaseAlone, errandAlone, escapedSnapshot] =
      [errandAlone, releaseAlone, escapedSnapshot] := by
    simp [sorted, List.mergeSort, escapedSnapshot, errandAlone, releaseAlone, names,
      Text.inOrder_refl]
  -- There are no halves in these snapshots.
  have whole : escapedSnapshot.joined = escapedSnapshot ∧ errandAlone.joined = errandAlone ∧
      releaseAlone.joined = releaseAlone := by
    simp [joined, escapedSnapshot, errandAlone, releaseAlone, escapedInstance, Errand.joined,
      Release.joined, Instance.joined, Process.joined]
  have other := apart _ _ printable' (isStableSort_sorted _)
  rw [isStableSort_iff.mp stable, order] at found other
  rw [order'] at other
  simp only [List.map_cons, List.map_nil, whole] at found other
  refine ⟨printable, text, rendered, ascii, found, fun same => ?_⟩
  have pair := other.mp same
  simp [escapedSnapshot, releaseAlone] at pair

/-- The halves of the character U+1F600 side by side. -/
def halves : Text := .ofList [.surrogate 0x3d, .surrogate 0x600]

/-- A name comes back as another one, which has the same text: two halves as the character that they
make up. -/
theorem not_decodes_of_halves :
    ¬ ∀ snapshots : List (Snapshot Facet.Entry), Printable snapshots →
      ∃ text arranged, render snapshots = .ok text ∧ IsAscii text.toList ∧
        IsStableSort snapshots arranged ∧ decode? text = some (.list (arranged.map decoded)) ∧
        ∀ others arranged', Printable others → IsStableSort others arranged' →
          arranged' ≠ arranged → render others ≠ .ok text := by
  intro claimed
  have printable (name : Text) : Printable [blank name] := by
    constructor <;> simp [blank, toJson, Facet.all, get, numbers_list, numbers_object, IsWritable]
  have alone (name : Text) : sorted [blank name] = [(blank name : Snapshot Facet.Entry)] := by
    simp [sorted]
  obtain ⟨text, arranged, rendered, _, stable, _, apart⟩ := claimed [blank halves] (printable _)
  obtain ⟨text', arranged', rendered', _, stable', _, same⟩ :=
    decodes_to_stable_sort (printable halves)
  rw [isStableSort_iff.mp stable, alone] at apart
  rw [isStableSort_iff.mp stable', alone] at same
  obtain rfl := Except.ok.inj (rendered.symm.trans rendered')
  have whole : halves.joined = "😀" ∧ halves ≠ "😀" := by decide +kernel
  have joined_ : [(blank "😀" : Snapshot Facet.Entry)].map joined = [blank halves].map joined := by
    simp [joined, blank, whole.1]
  refine apart [blank "😀"] [blank "😀"] (printable _) ?_ ?_ ((same _ _ (printable _) ?_).mpr joined_)
  · exact isStableSort_iff.mpr (alone _).symm
  · exact fun other => whole.2 (congrArg Snapshot.name (List.cons.inj other).1).symm
  · exact isStableSort_iff.mpr (alone _).symm

end Deployments.Snapshot
