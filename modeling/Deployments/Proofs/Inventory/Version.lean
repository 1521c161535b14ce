import Deployments.Proofs.Director
import Deployments.Proofs.Record.Rewritten
import Deployments.Proofs.Source
import Deployments.Proofs.Yaml.Swapped
import Deployments.Proofs.Yaml.Version

/-!
Versions of releases and stemcells in an inventory. A version without quotation marks is reported as
it is written if the document keeps it, and otherwise it is not.
-/

namespace Deployments

open Reading Yaml

/-- The version of an entry, for the facets whose entries have one. -/
def Facet.version? : (facet : Facet) → facet.Entry → Option Text
  | .releases, e => some e.version
  | .stemcells, e => some e.version
  | .errands, _ | .instances, _ => none

/-- The file under the path holds the document, before its values are built, and unfolded as far as
it is read. -/
def Source.HoldsNode (files : Files) (path : Text) (node : Node) : Prop :=
  ∃ bytes text, files.find path = .file bytes ∧ Text.decode? bytes = some text ∧
    (lines text.toList).all isAllowed = true ∧
    Node.unfolded? (Token.ofChars (lines text.toList)) = .ok (some node)

namespace Inventory

/-- The place of a version in an inventory: that of a record of a facet of a deployment. -/
def versionPlace (deployment : Nat) (facet : Facet) (position : Nat) : List Place :=
  [.name "deployments", .position deployment, .name facet.key, .position position, .name "version"]

/-- Reading a facet of the deployment gives the version for the record at a position. -/
def Entry.Gives (entry : Entry) (facet : Facet) (position : Nat) (version : Text) : Prop :=
  ∃ entries, entry.handle.read Facet.entryOf facet = .ok entries ∧
    ∃ e, entries[position]? = some e ∧ facet.version? e = some version

/-- The deployment at a place among the others is the one that is found under its name. -/
def ServesAt (inventory : Inventory) (deployment : Nat) (entry : Entry) : Prop :=
  inventory.deployments[deployment]? = some entry ∧
    inventory.director.find entry.name = .ok entry.handle

/-- The version is reported for a record of a facet of the deployment at a place among the others,
which is the one that is found under its name. -/
def Reports (inventory : Inventory) (deployment : Nat) (facet : Facet) (position : Nat)
    (version : Text) : Prop :=
  ∃ entry, inventory.ServesAt deployment entry ∧ entry.Gives facet position version

theorem load_eq_ok_iff {files : Files} {order : SetOrder} {path : Text} {node : Node}
    {inventory : Inventory} (holds : Source.HoldsNode files path node) :
    load files order path = .ok inventory ↔
      ∃ v, node.build order 0 = .ok v ∧ ofValue v = .ok inventory := by
  obtain ⟨bytes, text, found, decoded, allowed, parsed⟩ := holds
  have loaded : Yaml.load order (Source.lines text.toList) =
      (node.build order 0).mapError Prod.snd := by
    rw [Yaml.load, if_pos allowed, parsed]
    rfl
  rw [load, Source.read, found]
  simp only [Source.parse, decoded, loaded]
  cases node.build order 0 with
  | error e => simp [Except.mapError, Except.bind]
  | ok v => simp [Except.mapError, Except.bind, ofValue, Source.orEmpty_orEmpty]

end Inventory

/-! ### Readings of values that differ in one place -/

namespace RecordKind

variable {kind : RecordKind} {v w : Value}

theorem read_between {field : RecordField} {before : Entries} (after : Entries)
    (member : field ∈ kind.fields) (first : before.field? field.reader.key = none)
    (same : field.reader.read w = field.reader.read v) :
    kind.read (.dict (before ++ (.text field.reader.key, w) :: after)) =
      kind.read (.dict (before ++ (.text field.reader.key, v) :: after)) := by
  rw [← Checked.mapPaths_along_nil (field.reader.read v)] at same
  rw [read_given [] member first same]
  exact Checked.mapPaths_along_nil _

theorem read_items (before after : List Value) (same : kind.read w = kind.read v) :
    list kind.read (.list (before ++ w :: after)) =
      list kind.read (.list (before ++ v :: after)) := by
  rw [← Checked.mapPaths_along_nil (kind.read v)] at same
  rw [Rewritten.read_item (.inl rfl) same]
  exact Checked.mapPaths_along_nil _

end RecordKind

section Nested

variable {α : Type} {read : Value → Checked α} {a b v w : Value} {path : List Place}

/-- Records that are read alike are read alike as items of a field. -/
theorem RecordKind.read_nested (kind inner : RecordKind) {position : Int}
    (reader : FieldReader (List inner.Carrier)) (plain : reader.read = list inner.read)
    (member : .nested (.list inner) reader plain ∈ kind.fields)
    (swapped : Value.Swapped a b (.name reader.key :: .position position :: path) v w)
    (same : ∀ x y, Value.Swapped a b path x y → inner.read x = inner.read y) :
    kind.read v = kind.read w := by
  obtain ⟨before, after, _, _, first, rfl, rfl, items⟩ := swapped.exists_entries
  obtain ⟨front, back, x, y, _, rfl, rfl, record⟩ := items.exists_items
  have alike := read_items front back (same x y record)
  rw [← plain] at alike
  exact read_between after member first alike

theorem Reading.exists_item {before after : List Value} {items : List α}
    (done : list read (.list (before ++ v :: after)) = .ok items) :
    ∃ a, items[before.length]? = some a ∧ read v = .ok a := by
  have all := Checked.items_eq_ok_iff.mp done
  clear done
  induction before generalizing items with
  | nil =>
    obtain ⟨a, _, found, _, rfl⟩ := List.forall₂_cons_left_iff.mp all
    exact ⟨a, rfl, found⟩
  | cons u rest ih =>
    obtain ⟨_, others, _, later, rfl⟩ := List.forall₂_cons_left_iff.mp all
    exact ih later

theorem Reading.FieldReader.read_of_get_between {f : FieldReader α} {before after : Entries} {x : α}
    (first : before.field? f.key = none)
    (done : f.get (before ++ (.text f.key, v) :: after) = .ok x) : f.read v = .ok x := by
  rw [FieldReader.get_of_given (FieldReader.given?_own (Entries.field?_between_self first))] at done
  exact Checked.under_eq_ok_iff.mp done

/-- The record at the position is read from where the values may differ. -/
theorem Reading.FieldReader.exists_nested {f : FieldReader (List α)} (plain : f.read = list read)
    {position : Nat} {entries : Entries} {items : List α}
    (swapped : Value.Swapped a b (.name f.key :: .position position :: path) (.dict entries) w)
    (done : f.get entries = .ok items) :
    ∃ x y item, items[position]? = some item ∧ read x = .ok item ∧
      Value.Swapped a b path x y := by
  obtain ⟨before, after, _, _, first, same, _, row⟩ := swapped.exists_entries
  obtain ⟨front, back, x, y, length, rfl, _, record⟩ := row.exists_items
  obtain rfl := Value.dict.inj same
  have found := FieldReader.read_of_get_between first done
  rw [plain] at found
  obtain ⟨item, there, given⟩ := exists_item found
  rw [← Int.ofNat.inj length] at there
  exact ⟨x, y, item, there, given, record⟩

end Nested

namespace Inventory

variable {deployment position : Nat} {facet : Facet} {a b v w : Value}

/-- Versions of the same text make the same record. -/
theorem read_version_congr {kind : RecordKind}
    (member : .leaf (.required "version" versionText) ∈ kind.fields)
    (same : versionText a = versionText b) (swapped : Value.Swapped a b [.name "version"] v w) :
    kind.read v = kind.read w := by
  obtain ⟨before, after, _, _, first, rfl, rfl, inner⟩ := swapped.exists_entries
  cases inner
  exact RecordKind.read_between after member first same

/-- Versions of the same text make the same entry. -/
theorem Entry.read_congr (cataloged : facet = .releases ∨ facet = .stemcells)
    (same : versionText a = versionText b) {i : Int}
    (swapped : Value.Swapped a b [.name facet.key, .position i, .name "version"] v w) :
    Entry.read v = Entry.read w := by
  rcases cataloged with rfl | rfl
  · exact RecordKind.read_nested .entry .release
      (.optional "releases" [] (list Record.Release.read)) rfl
      (by simp) swapped
      fun _ _ record => read_version_congr (by simp) same record
  · exact RecordKind.read_nested .entry .stemcell
      (.optional "stemcells" [] (list Record.Stemcell.read)) rfl
      (by simp) swapped
      fun _ _ record => read_version_congr (by simp) same record

/-- Versions of the same text make the same inventory. -/
theorem ofValue_congr (cataloged : facet = .releases ∨ facet = .stemcells)
    (same : versionText a = versionText b)
    (swapped : Value.Swapped a b (versionPlace deployment facet position) v w) :
    ofValue v = ofValue w := by
  have alike : RecordKind.inventory.read v = RecordKind.inventory.read w :=
    RecordKind.read_nested .inventory .entry
      (.optional "deployments" [] (list Entry.read)) rfl
      (by simp) swapped fun _ _ entry => Entry.read_congr cataloged same entry
  obtain ⟨before, after, x, y, _, rfl, rfl, _⟩ := swapped.exists_entries
  have fields : readFields (before ++ (.text "deployments", x) :: after) =
      readFields (before ++ (.text "deployments", y) :: after) := alike
  have whole (z : Value) : Source.orEmpty (.dict (before ++ (.text "deployments", z) :: after)) =
      .dict (before ++ (.text "deployments", z) :: after) :=
    Source.orEmpty_of_truthy (by simp [Value.isTruthy])
  unfold ofValue
  rw [whole, whole, Source.named, Source.named, fields]
  simp only [List.all_append, List.all_cons]

theorem versionText_of_get {entries : Entries} {version : Text}
    (swapped : Value.Swapped a b [.name "version"] (.dict entries) w)
    (done : (FieldReader.required "version" versionText).get entries = .ok version) :
    versionText a = .ok version := by
  obtain ⟨before, after, _, _, first, same, _, inner⟩ := swapped.exists_entries
  obtain rfl := Value.dict.inj same
  cases inner
  exact FieldReader.read_of_get_between first done

theorem Release.versionText_of_read {r : Record.Release}
    (swapped : Value.Swapped a b [.name "version"] v w) (done : Record.Release.read v = .ok r) :
    versionText a = .ok r.version := by
  obtain ⟨entries, rfl, given⟩ := exists_entries_of_record done
  simp only [Checked.eq_ok_iff_exists (a := r), Checked.exists_seq_iff,
    Checked.exists_map_iff] at given
  obtain ⟨_, _, version, found, rfl⟩ := given
  exact versionText_of_get swapped found

theorem Stemcell.versionText_of_read {r : Record.Stemcell}
    (swapped : Value.Swapped a b [.name "version"] v w) (done : Record.Stemcell.read v = .ok r) :
    versionText a = .ok r.version := by
  obtain ⟨entries, rfl, given⟩ := exists_entries_of_record done
  simp only [Checked.eq_ok_iff_exists (a := r), Checked.exists_seq_iff,
    Checked.exists_map_iff] at given
  obtain ⟨_, _, version, found, _, _, rfl⟩ := given
  exact versionText_of_get swapped found

theorem Entry.gives_of_records {entry : Entry} {version : Text}
    {map : facet.Record → facet.Entry} (all : ∀ r, facet.entryOf r = .ok (some (map r)))
    {r : facet.Record} (there : (entry.records facet)[position]? = some r)
    (own : facet.version? (map r) = some version) : entry.Gives facet position version := by
  have mapped : entriesOf facet.entryOf (entry.records facet) =
      .ok ((entry.records facet).map map) := by
    rw [funext all]
    exact entriesOf_some map _
  refine ⟨(entry.records facet).map map, ?_, map r, ?_, own⟩
  · simp only [Handle.read, handle, mapped]
  · rw [List.getElem?_map, there]
    rfl

/-- The version of a deployment that is read is the text of the version that is given. -/
theorem Entry.gives_of_read (cataloged : facet = .releases ∨ facet = .stemcells)
    {entry : Entry} (swapped : Value.Swapped a b
      [.name facet.key, .position position, .name "version"] v w)
    (done : Entry.read v = .ok entry) :
    ∃ version, versionText a = .ok version ∧ entry.Gives facet position version := by
  obtain ⟨entries, rfl, given⟩ := exists_entries_of_record done
  simp only [Checked.eq_ok_iff_exists (a := entry), Checked.exists_seq_iff,
    Checked.exists_map_iff] at given
  obtain ⟨_, _, _, _, _, _, releases, foundReleases, stemcells, foundStemcells, rfl⟩ := given
  rcases cataloged with rfl | rfl
  · obtain ⟨_, _, r, there, read, record⟩ := FieldReader.exists_nested
      (f := .optional "releases" [] (list Record.Release.read)) rfl swapped foundReleases
    exact ⟨r.version, Release.versionText_of_read record read,
      Entry.gives_of_records (fun _ => rfl) there rfl⟩
  · obtain ⟨_, _, r, there, read, record⟩ := FieldReader.exists_nested
      (f := .optional "stemcells" [] (list Record.Stemcell.read)) rfl swapped foundStemcells
    exact ⟨r.version, Stemcell.versionText_of_read record read,
      Entry.gives_of_records (fun _ => rfl) there rfl⟩

/-- The version that is reported is the text of the version that is given. -/
theorem exists_of_ofValue (cataloged : facet = .releases ∨ facet = .stemcells)
    (swapped : Value.Swapped a b (versionPlace deployment facet position) v w)
    {inventory : Inventory} (done : ofValue v = .ok inventory) :
    ∃ entry version, inventory.deployments[deployment]? = some entry ∧
      versionText a = .ok version ∧ entry.Gives facet position version := by
  obtain ⟨entries, same, fields⟩ := Source.fields_of_named done
  simp only [readFields, Checked.eq_ok_iff_exists (a := inventory),
    Checked.exists_map_iff] at fields
  obtain ⟨deployments, found, rfl⟩ := fields
  have whole : v = .dict entries := by
    obtain ⟨_, _, _, _, _, rfl, _, _⟩ := swapped.exists_entries
    rw [← same, Source.orEmpty_of_truthy (by simp [Value.isTruthy])]
  subst whole
  obtain ⟨_, _, entry, there, read, inner⟩ := FieldReader.exists_nested
    (f := .optional "deployments" [] (list Entry.read)) rfl swapped found
  obtain ⟨version, written, gives⟩ := Entry.gives_of_read cataloged inner read
  exact ⟨entry, version, there, written, gives⟩

theorem Entry.Gives.unique {entry : Entry} {version other : Text}
    (gives : entry.Gives facet position version) (gives' : entry.Gives facet position other) :
    version = other := by
  obtain ⟨entries, read, e, there, own⟩ := gives
  obtain ⟨_, read', e', there', own'⟩ := gives'
  obtain rfl := Except.ok.inj (read.symm.trans read')
  obtain rfl := Option.some.inj (there.symm.trans there')
  exact Option.some.inj (own.symm.trans own')

/-- In a document that is loaded when a version stands in quotation marks, the version is reported
as it is written. Without the marks the document gives the same inventory if the version is kept,
and the version is reported as it is written only if it is kept. -/
theorem reports_unquoted_iff {files others : Files} {order : SetOrder} {path otherPath : Text}
    {plain quoted : Node} {t : Text} {groups : List (List Char)}
    (text : t = String.ofList (dotted groups))
    (given : groups ≠ []) (digits : ∀ group ∈ groups, Json.Grammar.IsDigits group)
    (cataloged : facet = .releases ∨ facet = .stemcells)
    (swapped : Node.Swapped (.scalar (.ofPlain t) t) (.scalar .str t)
      (versionPlace deployment facet position) plain quoted)
    (holds : Source.HoldsNode files path plain)
    (holds' : Source.HoldsNode others otherPath quoted)
    {inventory : Inventory} (loaded : load others order otherPath = .ok inventory)
    {entry : Entry} (served : inventory.ServesAt deployment entry) :
    inventory.Reports deployment facet position t ∧
      ((∃ read, load files order path = .ok read ∧ read.Reports deployment facet position t) ↔
        Kept groups) ∧
      (Kept groups → load files order path = .ok inventory) := by
  rw [← keptAs_ofPlain given digits, ← text]
  obtain ⟨whole, built, made⟩ := (load_eq_ok_iff holds').mp loaded
  obtain ⟨_, other, builds⟩ := swapped.exists_build built
  cases Node.build_scalar_eq_ok_iff.mp other
  have reported : inventory.Reports deployment facet position t := by
    obtain ⟨_, same, alone⟩ := swapped.right.exists_build built
    obtain ⟨_, again, itself⟩ := alone _ other
    cases built.symm.trans again
    obtain ⟨_, version, there, written, gives⟩ := exists_of_ofValue cataloged itself made
    cases written
    cases served.1.symm.trans there
    exact ⟨entry, served, gives⟩
  have kept : KeptAs (.ofPlain t) t → load files order path = .ok inventory := by
    rintro ⟨a, read, written⟩
    obtain ⟨other, build, alike⟩ := builds a (Node.build_scalar_eq_ok_iff.mpr read)
    exact (load_eq_ok_iff holds).mpr
      ⟨other, build, (ofValue_congr cataloged written alike).trans made⟩
  refine ⟨reported, ⟨?_, fun keeps => ⟨inventory, kept keeps, reported⟩⟩, kept⟩
  rintro ⟨read, loads, entry', served', gives'⟩
  obtain ⟨other, build, make⟩ := (load_eq_ok_iff holds).mp loads
  obtain ⟨a, value, _⟩ := swapped.symm.exists_build build
  obtain ⟨_, again, alike⟩ := builds a value
  cases build.symm.trans again
  obtain ⟨_, version, there, written, gives⟩ := exists_of_ofValue cataloged alike make
  cases served'.1.symm.trans there
  exact ⟨a, Node.build_scalar_eq_ok_iff.mp value, gives.unique gives' ▸ written⟩

/-! ### The inventory of one release -/

def releaseText (version : String) : String :=
  "deployments:\n- name: a\n  releases:\n  - name: r\n    version: " ++ version ++ "\n"

def releaseTokens (version : Token) : List Token :=
  [.blockMapping, .key, .scalar "deployments" true, .value, .blockEntry, .blockMapping, .key,
    .scalar "name" true, .value, .scalar "a" true, .key, .scalar "releases" true, .value,
    .blockEntry, .blockMapping, .key, .scalar "name" true, .value, .scalar "r" true, .key,
    .scalar "version" true, .value, version, .blockEnd, .blockEnd, .blockEnd]

def releaseNode (version : Node) : Node :=
  .mapping 26 .map [(.scalar .str "deployments", .sequence 22 .seq [.mapping 21 .map [
    (.scalar .str "name", .scalar .str "a"),
    (.scalar .str "releases", .sequence 13 .seq [.mapping 12 .map [
      (.scalar .str "name", .scalar .str "r"), (.scalar .str "version", version)]])]])]

def ofRelease (version : Text) : Inventory :=
  ⟨[{ name := "a"
      errands := []
      instances := []
      releases := [⟨"r", version⟩]
      stemcells := [] }]⟩

/-- The text is scanned to the tokens of an inventory whose release has the version. -/
def Scans (written : String) (version : Token) : Prop :=
  (Source.lines (releaseText written).toList).all isAllowed = true ∧
    Token.ofChars (Source.lines (releaseText written).toList) = releaseTokens version

instance (written : String) (version : Token) : Decidable (Scans written version) :=
  inferInstanceAs (Decidable (_ ∧ _))

theorem holdsNode_of_scans {written : String} {version : Token} {node : Node}
    (scans : Scans written version)
    (parsed : Node.unfolded? (releaseTokens version) = .ok (some (releaseNode node))) :
    Source.HoldsNode (Source.soleFile (releaseText written)) "f" (releaseNode node) := by
  have found : (Source.soleFile (releaseText written)).find "f" =
      .file (Text.encode (releaseText written)) := by
    unfold Source.soleFile Files.named
    generalize Text.encode (releaseText written) = bytes
    cbv
  exact ⟨_, _, found, Text.decode?_encode _, scans.1, scans.2 ▸ parsed⟩

theorem unfolded?_plain (t : Text) : Node.unfolded? (releaseTokens (.scalar t true)) =
    .ok (some (releaseNode (.scalar (.ofPlain t) t))) := rfl

theorem unfolded?_quoted (t : Text) : Node.unfolded? (releaseTokens (.scalar t false)) =
    .ok (some (releaseNode (.scalar .str t))) := rfl

theorem swapped_releaseNode (x y : Node) :
    Node.Swapped x y (versionPlace 0 .releases 0) (releaseNode x) (releaseNode y) :=
  .entry [] nofun (.item [] [] (.entry [_] nofun (.item [] [] (.entry [_] nofun .here))))

theorem load_releaseNode (order : SetOrder) {files : Files} {path : Text} {tag : Tag}
    {t u : Text} {x : Value}
    (holds : Source.HoldsNode files path (releaseNode (.scalar tag t)))
    (value : Scalar.value tag t = .ok x) (written : versionText x = .ok u) :
    load files order path = .ok (ofRelease u) := by
  have built : Node.build order 0 (releaseNode (.scalar .str u)) = .ok _ := rfl
  obtain ⟨_, text, builds⟩ := (swapped_releaseNode (.scalar tag t) _).exists_build built
  cases Node.build_scalar_eq_ok_iff.mp text
  obtain ⟨other, made, alike⟩ := builds x (Node.build_scalar_eq_ok_iff.mpr value)
  exact (load_eq_ok_iff holds).mpr
    ⟨other, made, (ofValue_congr (.inl rfl) written alike).trans rfl⟩

theorem servesAt_ofRelease (version : Text) :
    ∃ entry, (ofRelease version).ServesAt 0 entry ∧ entry.Gives .releases 0 version :=
  ⟨_, ⟨rfl, rfl⟩, _, rfl, _, rfl, rfl⟩

/-- The version `3468.21` is kept. -/
theorem reports_unquoted_of_fraction :
    Source.HoldsNode (Source.soleFile (releaseText "3468.21")) "f"
        (releaseNode (.scalar (.ofPlain "3468.21") "3468.21")) ∧
      load (Source.soleFile (releaseText "'3468.21'")) .asGiven "f" = .ok (ofRelease "3468.21") ∧
      load (Source.soleFile (releaseText "3468.21")) .asGiven "f" = .ok (ofRelease "3468.21") ∧
      (ofRelease "3468.21").Reports 0 .releases 0 "3468.21" := by
  let groups : List (List Char) := [['3', '4', '6', '8'], ['2', '1']]
  have text : ("3468.21" : Text) = String.ofList (dotted groups) := by decide +kernel
  have scans : Scans "3468.21" (.scalar "3468.21" true) := by decide +kernel
  have scans' : Scans "'3468.21'" (.scalar "3468.21" false) := by decide +kernel
  have holds := holdsNode_of_scans scans (unfolded?_plain _)
  have holds' := holdsNode_of_scans scans' (unfolded?_quoted _)
  have loaded := load_releaseNode .asGiven holds' rfl rfl
  have kept : Kept groups := by
    refine ⟨.ofDecimal false 346821 (-2), Decimal.Binary64.canonical_ofDecimal _ _ _, ?_⟩
    decide +kernel
  obtain ⟨entry, served, _⟩ := servesAt_ofRelease "3468.21"
  have digits : ∀ group ∈ groups, Json.Grammar.IsDigits group := by
    simp [groups, Json.Grammar.IsDigits]
  obtain ⟨reported, _, same⟩ := reports_unquoted_iff text (List.cons_ne_nil _ _) digits (.inl rfl)
    (swapped_releaseNode _ _) holds holds' loaded served
  exact ⟨holds, loaded, same kept, reported⟩

/-- The version `3468.10` is reported as `3468.1`, which is another one. -/
theorem not_reports_unquoted_of_trailing_zero :
    ∃ read, load (Source.soleFile (releaseText "3468.10")) .asGiven "f" = .ok read ∧
      load (Source.soleFile (releaseText "3468.1")) .asGiven "f" = .ok read ∧
      read.Reports 0 .releases 0 "3468.1" ∧ ¬ read.Reports 0 .releases 0 "3468.10" := by
  have loads (t : String) (fraction : List Char)
      (text : String.ofList (dotted [['3', '4', '6', '8'], fraction]) = t)
      (digits : fraction ≠ [] ∧ fraction.all Char.isDigit = true)
      (number : Tag.ofPlain t = .float ∧
        Decimal.number? (dotted [['3', '4', '6', '8'], fraction]) =
          some (.ofDecimal false 34681 (-1)))
      (scans : Scans t (.scalar t true)) :
      load (Source.soleFile (releaseText t)) .asGiven "f" = .ok (ofRelease "3468.1") := by
    have value := value_float (List.cons_ne_nil _ _)
      (by simpa [Json.Grammar.IsDigits] using digits) number.2
    rw [text] at value
    refine load_releaseNode _ (holdsNode_of_scans scans (unfolded?_plain t)) (number.1 ▸ value) ?_
    rw [versionText_float]
    decide +kernel
  obtain ⟨entry, served, gives⟩ := servesAt_ofRelease "3468.1"
  refine ⟨ofRelease "3468.1", ?_, ?_, ⟨entry, served, gives⟩, ?_⟩
  · exact loads _ ['1', '0'] (by decide +kernel) (by decide) (by decide +kernel) (by decide +kernel)
  · exact loads _ ['1'] (by decide +kernel) (by decide) (by decide +kernel) (by decide +kernel)
  · rintro ⟨other, served', gives'⟩
    cases served.1.symm.trans served'.1
    exact absurd (gives.unique gives') (by decide)

end Inventory

end Deployments
