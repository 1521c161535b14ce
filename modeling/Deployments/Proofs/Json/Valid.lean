import Mathlib.Data.List.Basic
import Deployments.Proofs.Json.Hereditary
import Deployments.Proofs.Json.Numbers
import Deployments.Proofs.Json.Unquoted

/-!
Which documents have a text of the grammar: those in which all numbers are finite.
-/

namespace Deployments.Json

open Decimal Grammar

/-! ### Texts of finite documents -/

theorem isInner_append {a b : List Char} (left : IsInner a) (right : IsInner b) :
    IsInner (a ++ b) := by
  induction left with
  | nil => exact right
  | unescaped printable notQuote notEscape _ ih => exact .unescaped printable notQuote notEscape ih
  | escaped letter _ ih => exact .escaped letter ih
  | @unit digits cs four hex _ ih =>
    rw [List.cons_append, List.cons_append, List.append_assoc]
    exact .unit four hex ih

theorem isInner_flatMap {α : Type} {f : α → List Char} (all : ∀ a, IsInner (f a)) (items : List α) :
    IsInner (items.flatMap f) := by
  induction items with
  | nil => exact .nil
  | cons a rest ih =>
    rw [List.flatMap_cons]
    exact isInner_append (all a) ih

theorem all_isHexDigit_hexDigits (width n : Nat) :
    (Text.hexDigits width n).all isHexDigit = true := by
  have digit : ∀ m : Fin 16, isHexDigit (Text.hexDigit m) = true := by decide
  induction width generalizing n with
  | zero => rfl
  | succ width ih =>
    have last := digit ⟨n % 16, Nat.mod_lt n (by decide)⟩
    simp [Text.hexDigits, ih, last]

theorem isInner_unit (unit : Nat) : IsInner ('\\' :: 'u' :: Text.hexDigits 4 unit) := by
  have bare : IsInner ('\\' :: 'u' :: (Text.hexDigits 4 unit ++ [])) :=
    .unit (Text.hexDigits_length 4 unit) (all_isHexDigit_hexDigits 4 unit) .nil
  rwa [List.append_nil] at bare

/-- The characters that are escaped by a letter, with their letters. -/
def lettered : List (Char × Char) :=
  [('\x22', '\x22'), ('\\', '\\'), ('\n', 'n'), ('\r', 'r'), ('\t', 't'), ('\x0c', 'f'),
    ('\x08', 'b')]

theorem escaped_cases (c : Char) :
    (∃ letter, (c, letter) ∈ lettered ∧ escaped c = ['\\', letter]) ∨
    (0x20 ≤ c.toNat ∧ c.toNat ≤ 0x7e ∧ c ≠ '\x22' ∧ c ≠ '\\' ∧ escaped c = [c]) ∨
    escaped c = (units (.char c)).flatMap fun unit => '\\' :: 'u' :: Text.hexDigits 4 unit := by
  unfold escaped
  split_ifs with quote backslash newline return_ tab feed back printable
  · exact .inl ⟨_, by simp [lettered, eq_of_beq quote], rfl⟩
  · exact .inl ⟨_, by simp [lettered, eq_of_beq backslash], rfl⟩
  · exact .inl ⟨_, by simp [lettered, eq_of_beq newline], rfl⟩
  · exact .inl ⟨_, by simp [lettered, eq_of_beq return_], rfl⟩
  · exact .inl ⟨_, by simp [lettered, eq_of_beq tab], rfl⟩
  · exact .inl ⟨_, by simp [lettered, eq_of_beq feed], rfl⟩
  · exact .inl ⟨_, by simp [lettered, eq_of_beq back], rfl⟩
  · have notQuote : c ≠ '\x22' := by simpa using quote
    have notBackslash : c ≠ '\\' := by simpa using backslash
    exact .inr (.inl ⟨printable.1, printable.2, notQuote, notBackslash, rfl⟩)
  · exact .inr (.inr rfl)

theorem isInner_escaped (c : Char) : IsInner (escaped c) := by
  rcases escaped_cases c with
    ⟨letter, member, same⟩ | ⟨printable, _, notQuote, notBackslash, same⟩ | same
  · have letters : ∀ pair ∈ lettered, pair.2 ∈ ['\x22', '\\', '/', 'b', 'f', 'n', 'r', 't'] := by
      simp [lettered]
    rw [same]
    exact .escaped (letters _ member) .nil
  · rw [same]
    exact .unescaped printable notQuote notBackslash .nil
  · rw [same]
    exact isInner_flatMap isInner_unit _

theorem isInner_escapedPoint (p : Point) : IsInner (escapedPoint p) := by
  cases p with
  | char c => exact isInner_escaped c
  | surrogate n => exact isInner_flatMap isInner_unit _

theorem isString_quoted (s : Text) : IsString (quoted s) :=
  ⟨_, isInner_flatMap isInner_escapedPoint s.toList, rfl⟩

/-! ### Rows between brackets -/

theorem isSpace_margin (depth : Nat) : (margin depth).all isSpace = true := by
  simp [margin, List.all_replicate, isSpace]

section Rows

variable {α β : Type}

/-- What is made of the lines between brackets; only behind the last one something follows. -/
def spread (make : List Char → β → α) (after : List Char) : List β → List α
  | [] => []
  | [b] => [make after b]
  | b :: rest => make [] b :: spread make after rest

theorem forall_mem_spread {make : List Char → β → α} {after : List Char} {bs : List β}
    {p : α → Prop} (all : ∀ b ∈ bs, ∀ a ∈ [after, []], p (make a b)) :
    ∀ a ∈ spread make after bs, p a := by
  fun_induction spread make after bs with
  | case1 => nofun
  | case2 b => exact List.forall_mem_singleton.mpr (all b (by simp) after (by simp))
  | case3 b rest _ ih =>
    rw [List.forall_mem_cons] at all ⊢
    exact ⟨all.1 [] (by simp), ih all.2⟩

theorem spread_ne_nil {make : List Char → β → α} {after : List Char} {bs : List β}
    (given : bs ≠ []) : spread make after bs ≠ [] := by
  fun_cases spread make after bs with
  | case1 => exact (given rfl).elim
  | case2 | case3 => exact List.cons_ne_nil _ _

theorem row_spread (make : List Char → β → α) (text : α → List Char) (line : β → List Char)
    {before : List Char} (same : ∀ after b, text (make after b) = before ++ (line b ++ after))
    (after : List Char) {bs : List β} (given : bs ≠ []) :
    row ((spread make after bs).map text) =
      before ++ ((',' :: before).intercalate (bs.map line) ++ after) := by
  fun_induction spread make after bs with
  | case1 => exact (given rfl).elim
  | case2 b => simp [row, same]
  | case3 b rest more ih =>
    have later : (spread make after rest).map text ≠ [] := by simpa using spread_ne_nil more
    have lines : rest.map line ≠ [] := by simpa using more
    rw [List.map_cons, row, List.intercalate_cons_of_ne_nil later, ← row, ih more, List.map_cons,
      List.intercalate_cons_of_ne_nil lines, same]
    simp

theorem bracketed_eq (opening closing : Char) (depth : Nat) {lines : List (List Char)}
    (given : lines ≠ []) :
    bracketed opening closing depth lines = opening ::
      ((('\n' :: margin (depth + 1)) ++
        ((',' :: '\n' :: margin (depth + 1)).intercalate lines ++ '\n' :: margin depth)) ++
          [closing]) := by
  rw [bracketed, if_neg (by simpa using given)]
  simp

end Rows

theorem isSpace_line (depth : Nat) : ('\n' :: margin depth).all isSpace = true := by
  rw [List.all_cons, isSpace_margin]
  rfl

/-- What follows the parts of a row is the end of the last line, or nothing. -/
theorem isSpace_after {depth : Nat} {after : List Char}
    (member : after ∈ ['\n' :: margin depth, []]) : after.all isSpace = true := by
  rcases List.mem_cons.mp member with rfl | none_
  · exact isSpace_line depth
  · rw [List.mem_singleton.mp none_]
    rfl

theorem isValue_array (depth : Nat) {lines : List (List Char)}
    (all : ∀ line ∈ lines, IsValue line) : IsValue (bracketed '[' ']' depth lines) := by
  by_cases empty : lines = []
  · subst empty
    have bare : IsValue ('[' :: ([] ++ [']'])) := .emptyArray rfl
    exact bare
  · let make (after line : List Char) : Padded := ⟨'\n' :: margin (depth + 1), line, after⟩
    have text := row_spread make (·.text) id (fun _ _ => rfl) ('\n' :: margin depth) empty
    rw [List.map_id] at text
    rw [bracketed_eq _ _ _ empty, ← text]
    exact .array (spread_ne_nil empty)
      (forall_mem_spread fun line _ after padding => ⟨isSpace_line _, isSpace_after padding⟩)
      (forall_mem_spread fun line member after _ => all line member)

theorem isValue_object (depth : Nat) {members : List (Text × List Char)}
    (all : ∀ member ∈ members, IsValue member.2) :
    IsValue (bracketed '\x7b' '\x7d' depth (members.map memberLine)) := by
  by_cases empty : members = []
  · subst empty
    have bare : IsValue ('\x7b' :: ([] ++ ['\x7d'])) := .emptyObject rfl
    exact bare
  · let make (after : List Char) (member : Text × List Char) : Padded × Padded :=
      (⟨'\n' :: margin (depth + 1), quoted member.1, []⟩, ⟨[' '], member.2, after⟩)
    have same : ∀ after member, memberText (make after member) =
        ('\n' :: margin (depth + 1)) ++ (memberLine member ++ after) := by
      intro after member
      simp [make, memberText, Padded.text, memberLine]
    have text := row_spread make memberText memberLine same ('\n' :: margin depth) empty
    rw [bracketed_eq _ _ _ (by simpa using empty), ← text]
    exact .object (spread_ne_nil empty)
      (forall_mem_spread fun member _ after _ => ⟨⟨isSpace_line _, rfl⟩, isString_quoted member.1⟩)
      (forall_mem_spread fun member _ after padding => ⟨rfl, isSpace_after padding⟩)
      (forall_mem_spread fun member inside after _ => all member inside)

/-- A document in which all numbers are finite is written as a value of the grammar. -/
theorem hereditary_isValue : Hereditary IsShown fun _ cs => IsValue cs where
  null := .word (by simp)
  bool b := .word (by cases b <;> simp)
  int n := .number (isNumber_integer n)
  float shown := .number (NumberFormat.json.isNumber_write shown.1 shown.2)
  text s := .string (isString_quoted s)
  list depth _ _ all := isValue_array depth (forall_mem_of_forall₂ all)
  object depth _ _ all :=
    isValue_object depth (forall_mem_of_forall₂ (all.imp fun _ _ => And.right))

/-! ### Texts of other documents -/

/-- Some number in the document is not finite. -/
def HasSpecial (x : Json) : Prop := ¬ x.Numbers fun y => y.isFinite = true

theorem hasSpecial_list {items : List Json} :
    (list items).HasSpecial ↔ ∃ x ∈ items, x.HasSpecial := by
  simp [HasSpecial, numbers_list]

theorem hasSpecial_object {members : List (Text × Json)} :
    (object members).HasSpecial ↔ ∃ member ∈ members, member.2.HasSpecial := by
  rw [HasSpecial, numbers_object]
  push Not
  rfl

theorem tells_bracketed {α : Type} {r : α → Prop} {opening closing : Char} {depth : Nat}
    {items : List α} {lines : List (List Char)} (open_ : isPlain opening = true)
    (close : isPlain closing = true)
    (all : List.Forall₂ (fun item line => Tells line (r item)) items lines) :
    Tells (bracketed opening closing depth lines) (∃ item ∈ items, r item) := by
  have space : ∀ depth, ('\n' :: margin depth).all isPlain = true :=
    fun depth => all_isPlain_of_isSpace (isSpace_line depth)
  by_cases empty : lines = []
  · subst empty
    cases all
    have brackets : [opening, closing].all isPlain = true := by simp [open_, close]
    exact (Tells.of_plain brackets).congr (by simp)
  · rw [bracketed_eq _ _ _ empty]
    have separator : (',' :: '\n' :: margin (depth + 1)).all isPlain = true := by
      rw [List.all_cons, space]
      rfl
    have row := (Tells.intercalate separator all).append_plain (space depth)
    exact .cons open_ (.append_plain (.plain_append (space _) row) (by simp [close]))

theorem tells_special {y : Binary64} (special : y.isFinite = false) :
    Tells (NumberFormat.json.write y).toList True := by
  cases y with
  | finite => cases special
  | nan =>
    have word : (NumberFormat.json.write .nan).toList = ['N', 'a', 'N'] := rfl
    exact .of_foreign (by simp [word]) (by simp [word, isForeign])
  | infinity negative =>
    have word : (NumberFormat.json.write (.infinity negative)).toList =
        (if negative then ['-'] else []) ++ ['I', 'n', 'f', 'i', 'n', 'i', 't', 'y'] := by
      cases negative <;> rfl
    exact .of_foreign (by cases negative <;> simp [word]) (by simp [word, isForeign])

theorem tells_float {y : Binary64} (canonical : y.Canonical) :
    Tells (NumberFormat.json.write y).toList (float y).HasSpecial := by
  cases finite : y.isFinite with
  | true =>
    have number := NumberFormat.json.isNumber_write canonical finite
    exact (tells_of_isValue (.number number)).congr (by simp [HasSpecial, finite])
  | false => exact (tells_special finite).congr (by simp [HasSpecial, finite])

/-- Text shows whether some number in the document is not finite. -/
theorem hereditary_tells : Hereditary Binary64.Canonical fun x cs => Tells cs x.HasSpecial where
  null := (tells_of_isValue hereditary_isValue.null).congr (by simp [HasSpecial])
  bool b := (tells_of_isValue (hereditary_isValue.bool b)).congr (by simp [HasSpecial])
  int n := (tells_of_isValue (hereditary_isValue.int n)).congr (by simp [HasSpecial])
  float canonical := tells_float canonical
  text s := (tells_of_isString (isString_quoted s)).congr (by simp [HasSpecial])
  list depth _ _ all :=
    (tells_bracketed (by decide) (by decide) all).congr hasSpecial_list.symm
  object depth members parts all := by
    have line : ∀ (member : Text × Json) (part : Text × List Char),
        member.1 = part.1 ∧ Tells part.2 member.2.HasSpecial →
        Tells (memberLine part) member.2.HasSpecial := by
      rintro member part ⟨_, value⟩
      have name := tells_of_isString (isString_quoted part.1)
      have both := name.append (.cons (c := ':') (by decide) (.cons (c := ' ') (by decide) value))
      exact both.congr (iff_of_eq (false_or _))
    have lines : List.Forall₂ (fun member line => Tells line member.2.HasSpecial) members
        (parts.map memberLine) := List.forall₂_map_right_iff.mpr (all.imp line)
    exact (tells_bracketed (by decide) (by decide) lines).congr hasSpecial_object.symm

/-- The text of a document is in the grammar exactly if all its numbers are finite. -/
theorem isText_write_iff {x : Json} (canonical : x.Numbers Binary64.Canonical) {cs : List Char}
    (written : x.write 0 = .ok cs) :
    IsText (cs ++ ['\n']) ↔ x.Numbers fun y => y.isFinite = true := by
  constructor
  · intro isText
    have value := hereditary_tells.write 0 x canonical cs written
    have tells := value.append_plain (b := ['\n']) (by decide)
    -- The grammar has no foreign letter outside strings, so the document has no special number.
    have none_ := tells.unique (tells_of_isText isText)
    exact not_not.mp none_.mp
  · intro finite
    have shown : x.Numbers IsShown := fun y leaf => ⟨canonical y leaf, finite y leaf⟩
    have value := hereditary_isValue.write 0 x shown cs written
    exact ⟨⟨[], cs, ['\n']⟩, ⟨rfl, rfl⟩, value, rfl⟩

end Deployments.Json
