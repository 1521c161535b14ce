import Deployments.Proofs.Json.Parsed

/-!
Written text decodes to the document it was written from, and the document can be told from it:
numbers come back by reading their text.
-/

namespace Deployments.Json

open Decimal Decoder Grammar

/-! ### What documents decode to -/

mutual

/-- What the text of a document says. A number stands as the text that is displayed for it. -/
def decoded : Json → Decoded
  | null => .null
  | bool b => .bool b
  | int n => .integer n
  | float x => .decimal (NumberFormat.display.write x)
  | text s => .text s
  | list items => .list (itemsDecoded items)
  | object members => .object (membersDecoded members)
termination_by structural x => x

def itemsDecoded : List Json → List Decoded
  | [] => []
  | x :: xs => x.decoded :: itemsDecoded xs
termination_by structural x => x

def membersDecoded : List (Text × Json) → List (Text × Decoded)
  | [] => []
  | (key, x) :: rest => (key, x.decoded) :: membersDecoded rest
termination_by structural x => x

end

@[simp] theorem decoded_list (items : List Json) :
    (list items).decoded = .list (items.map decoded) := by
  have all : itemsDecoded items = items.map decoded := by
    induction items with
    | nil => rfl
    | cons x xs ih => rw [itemsDecoded, ih, List.map_cons]
  rw [decoded, all]

@[simp] theorem decoded_object (members : List (Text × Json)) :
    (object members).decoded =
      .object (members.map fun member => (member.1, member.2.decoded)) := by
  have all : membersDecoded members =
      members.map fun member => (member.1, member.2.decoded) := by
    induction members with
    | nil => rfl
    | cons member rest ih => rw [membersDecoded, ih, List.map_cons]
  rw [decoded, all]

/-! ### Decoding what is written -/

/-- The characters are those of a document. -/
def Reads (cs : List Char) (x : Decoded) : Prop := ∃ ts, Spells cs ts ∧ Parses ts x

/-- The characters are those of a key and a document, with a colon between them. -/
def ReadsMember (cs : List Char) (member : Text × Decoded) : Prop :=
  ∃ ts, Spells cs ts ∧ ParsesMember ts member

theorem Reads.decode? {text : String} {x : Decoded} (reads : Reads text.toList x) :
    decode? text = some x := by
  obtain ⟨ts, spells, parses⟩ := reads
  rw [Json.decode?, spells.tokens?_eq, Option.bind_some, document?, parses []]
  rfl

theorem exists_forall₂ {α β γ : Type} {r : α → β → Prop} {q : β → γ → Prop} {as : List α}
    {cs : List γ} (all : List.Forall₂ (fun a c => ∃ b, r a b ∧ q b c) as cs) :
    ∃ bs, List.Forall₂ r as bs ∧ List.Forall₂ q bs cs := by
  induction all with
  | nil => exact ⟨[], .nil, .nil⟩
  | cons first _ ih =>
    obtain ⟨b, left, right⟩ := first
    obtain ⟨bs, lefts, rights⟩ := ih
    exact ⟨b :: bs, .cons left lefts, .cons right rights⟩

theorem reads_word {cs : List Char} {x : Decoded} (spells : Spells cs [.word cs])
    (found : word? cs = some x) : Reads cs x :=
  ⟨[.word cs], spells, parses_word found⟩

theorem reads_list (depth : Nat) {lines : List (List Char)} {xs : List Decoded}
    (all : List.Forall₂ Reads lines xs) : Reads (bracketed '[' ']' depth lines) (.list xs) := by
  obtain ⟨tss, spells, parses⟩ := exists_forall₂ all
  exact ⟨_, (closes_bracketed rfl rfl depth spells).spells, parses_list parses⟩

theorem reads_object (depth : Nat) {lines : List (List Char)}
    {members : List (Text × Decoded)} (all : List.Forall₂ ReadsMember lines members) :
    Reads (bracketed '\x7b' '\x7d' depth lines) (.object members) := by
  obtain ⟨tss, spells, parses⟩ := exists_forall₂ all
  exact ⟨_, (closes_bracketed rfl rfl depth spells).spells, parses_object parses⟩

theorem readsMember_memberLine (key : Text) {cs : List Char} {x : Decoded} (reads : Reads cs x) :
    ReadsMember (memberLine (key, cs)) (key.joined, x) := by
  obtain ⟨ts, spells, parses⟩ := reads
  have colon : Closes [':', ' '] [.colon] := (closes_mark rfl).append (closes_space rfl)
  have line := (closes_quoted key).append_spells (colon.append_spells spells)
  exact ⟨_, line, ts, rfl, parses⟩

theorem reads_float {x : Binary64} (shown : IsShown x) :
    Reads (NumberFormat.json.write x).toList (.decimal (NumberFormat.display.write x)) := by
  have number := NumberFormat.json.isNumber_write shown.1 shown.2
  have same : NumberFormat.json.write x = NumberFormat.display.write x := by
    cases x with
    | nan | infinity => cases shown.2
    | finite => rfl
  refine reads_word (spells_number number) ?_
  rw [word?_of_isNumber number, decodeNumber?_decimal number (exists_mark_write _ shown.2),
    String.ofList_toList, same]

theorem reads_integer (n : Int) : Reads (integer n) (.integer n) := by
  have number := isNumber_integer n
  refine reads_word (spells_number number) ?_
  rw [word?_of_isNumber number, decodeNumber?_integer]

theorem hereditary_reads : Hereditary IsShown fun x cs => Reads cs x.joined.decoded where
  null := reads_word (spells_word (by simp) (by simp [isDelimiter, isSpace, mark?])) rfl
  bool b := by
    cases b <;> exact reads_word (spells_word (by simp) (by simp [isDelimiter, isSpace, mark?])) rfl
  int n := reads_integer n
  float shown := reads_float shown
  text s := ⟨_, (closes_quoted s).spells, parses_text s.joined⟩
  list depth items lines all := by
    rw [joined_list, decoded_list, List.map_map]
    exact reads_list depth (List.forall₂_map_right_iff.mpr all.flip)
  object depth members parts all := by
    have line : ∀ (part : Text × List Char) (member : Text × Json),
        member.1 = part.1 ∧ Reads part.2 member.2.joined.decoded →
        ReadsMember (memberLine part) (member.1.joined, member.2.joined.decoded) := by
      rintro part member ⟨same, reads⟩
      rw [same]
      exact readsMember_memberLine part.1 reads
    rw [joined_object, decoded_object, List.map_map]
    refine reads_object depth (List.forall₂_map_left_iff.mpr (List.forall₂_map_right_iff.mpr ?_))
    exact all.flip.imp line

/-- The text of a document in which all numbers are finite decodes to the document, but that
surrogates which make up a character are put together. -/
theorem decode?_of_render {x : Json} (shown : x.Numbers IsShown) {text : String}
    (rendered : x.render = .ok text) : decode? text = some x.joined.decoded := by
  obtain ⟨cs, written, rfl⟩ := map_eq_ok_iff.mp rendered
  refine Reads.decode? ?_
  rw [String.toList_ofList]
  exact hereditary_reads.write 0 x shown cs written

/-! ### Documents with the same text -/

theorem escapedPoint_of_pair {p q : Point} {c : Char} (pair : p.pair? q = some c) :
    escapedPoint (.char c) = escapedPoint p ++ escapedPoint q := by
  obtain ⟨units_, high⟩ := Point.units_of_pair pair
  have own : escaped c = escapedUnits (.char c) := by
    rcases escaped_cases c with ⟨letter, member, _⟩ | ⟨_, low, _⟩ | same
    · have low : ∀ pair ∈ lettered, pair.1.toNat < 0x10000 := by simp [lettered]
      exact absurd (low _ member) (Nat.not_lt.mpr high)
    · omega
    · exact same
  cases p with
  | char d => cases pair
  | surrogate first =>
    cases q with
    | char d => cases pair
    | surrogate second =>
      exact own.trans ((congrArg (List.flatMap _) units_).trans List.flatMap_append)

theorem quoted_joined (s : Text) : quoted s.joined = quoted s := by
  have same (ps : List Point) :
      (Point.joined ps).flatMap escapedPoint = ps.flatMap escapedPoint := by
    fun_induction Point.joined ps with
    | case1 | case2 => rfl
    | case3 p q rest c pair ih =>
      rw [List.flatMap_cons, escapedPoint_of_pair pair, ih, List.append_assoc]
      rfl
    | case4 p q rest _ ih => exact congrArg (escapedPoint p ++ ·) ih
  rw [quoted, Text.joined, Text.toList_ofList, same, ← quoted]

mutual

theorem write_joined (depth : Nat) : (x : Json) → x.joined.write depth = x.write depth
  | null | bool _ | int _ | float _ => rfl
  | text s => congrArg Except.ok (quoted_joined s)
  | list items => by
    rw [joined, write, write, writeItems_joined]
  | object members => by
    rw [joined, write, write, writeMembers_joined]

theorem writeItems_joined (depth : Nat) :
    (items : List Json) → writeItems depth (itemsJoined items) = writeItems depth items
  | [] => rfl
  | x :: xs => by
    rw [itemsJoined, writeItems, writeItems, write_joined depth x, writeItems_joined depth xs]

theorem writeMembers_joined (depth : Nat) : (members : List (Text × Json)) →
    writeMembers depth (membersJoined members) = writeMembers depth members
  | [] => rfl
  | (key, x) :: rest => by
    rw [membersJoined, writeMembers, writeMembers, write_joined depth x,
      writeMembers_joined depth rest, quoted_joined]

end

theorem render_joined (x : Json) : x.joined.render = x.render :=
  congrArg (Except.map String.ofList) (write_joined 0 x)

mutual

theorem leaves_joined : (x : Json) → x.joined.leaves = x.leaves.map joined
  | null | bool _ | int _ | float _ | text _ => rfl
  | list items => itemLeaves_joined items
  | object members => memberLeaves_joined members

theorem itemLeaves_joined :
    (items : List Json) → itemLeaves (itemsJoined items) = (itemLeaves items).map joined
  | [] => rfl
  | x :: xs => by
    rw [itemsJoined, itemLeaves, itemLeaves, leaves_joined x, itemLeaves_joined xs,
      List.map_append]

theorem memberLeaves_joined : (members : List (Text × Json)) →
    memberLeaves (membersJoined members) = (memberLeaves members).map joined
  | [] => rfl
  | (key, x) :: rest => by
    rw [membersJoined, memberLeaves, memberLeaves, leaves_joined x, memberLeaves_joined rest,
      List.map_append]

end

theorem numbers_joined {p : Binary64 → Prop} {x : Json} (numbers : x.Numbers p) :
    x.joined.Numbers p := by
  intro y leaf
  rw [leaves_joined] at leaf
  obtain ⟨z, inside, same⟩ := List.mem_map.mp leaf
  cases z with
  | float z =>
    cases same
    exact numbers y inside
  | null | bool _ | int _ | text _ | list _ | object _ => cases same

/-! ### Telling documents from what they decode to -/

mutual

/-- The document that has been decoded; a decimal is the number that it writes. -/
def Decoded.document : Decoded → Json
  | .null => .null
  | .bool b => .bool b
  | .integer n => .int n
  | .decimal s => .float ((number? s.toList).getD .nan)
  | .text s => .text s
  | .list items => .list (itemDocuments items)
  | .object members => .object (memberDocuments members)
termination_by structural x => x

def itemDocuments : List Decoded → List Json
  | [] => []
  | x :: xs => x.document :: itemDocuments xs
termination_by structural x => x

def memberDocuments : List (Text × Decoded) → List (Text × Json)
  | [] => []
  | (key, x) :: rest => (key, x.document) :: memberDocuments rest
termination_by structural x => x

end

mutual

theorem document_decoded : (x : Json) → x.Numbers IsShown → x.decoded.document = x
  | null, _ => rfl
  | bool _, _ => rfl
  | int _, _ => rfl
  | float y, shown => by
    obtain ⟨canonical, finite⟩ := (numbers_float y).mp shown
    rw [decoded, Decoded.document, NumberFormat.display.number?_write canonical finite,
      Option.getD_some]
  | text _, _ => rfl
  | list items, shown => congrArg list (itemDocuments_itemsDecoded items (numbers_list.mp shown))
  | object members, shown =>
    congrArg object (memberDocuments_membersDecoded members (numbers_object.mp shown))

theorem itemDocuments_itemsDecoded : (items : List Json) → (∀ x ∈ items, x.Numbers IsShown) →
    itemDocuments (itemsDecoded items) = items
  | [], _ => rfl
  | x :: xs, shown => by
    rw [List.forall_mem_cons] at shown
    rw [itemsDecoded, itemDocuments, document_decoded x shown.1,
      itemDocuments_itemsDecoded xs shown.2]

theorem memberDocuments_membersDecoded : (members : List (Text × Json)) →
    (∀ member ∈ members, member.2.Numbers IsShown) →
    memberDocuments (membersDecoded members) = members
  | [], _ => rfl
  | (key, x) :: rest, shown => by
    rw [List.forall_mem_cons] at shown
    rw [membersDecoded, memberDocuments, document_decoded x shown.1,
      memberDocuments_membersDecoded rest shown.2]

end

theorem eq_of_decoded {x y : Json} (shown : x.Numbers IsShown) (shown' : y.Numbers IsShown)
    (same : x.decoded = y.decoded) : x = y := by
  rw [← document_decoded x shown, same, document_decoded y shown']

end Deployments.Json
