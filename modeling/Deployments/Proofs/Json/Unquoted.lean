import Mathlib.Data.List.Forall2
import Deployments.Proofs.Json.Grammar

/-!
What stands outside the strings of a text. In a text of the grammar no letter `N` and no letter `I`
stands there, so the words for numbers that are not finite are in no such text.
-/

namespace Deployments.Json.Grammar

inductive Place where
  | outside
  | inside
  /-- Behind a backslash in a string. -/
  | escape
  deriving DecidableEq, Repr

/-- The characters outside strings, but for the quotation marks. -/
@[simp]
def unquoted : Place → List Char → List Char
  | _, [] => []
  | .outside, c :: cs => if c = '\x22' then unquoted .inside cs else c :: unquoted .outside cs
  | .inside, c :: cs =>
    if c = '\x22' then unquoted .outside cs
    else if c = '\\' then unquoted .escape cs
    else unquoted .inside cs
  | .escape, _ :: cs => unquoted .inside cs

/-- All strings of the characters are closed, and the second ones stand outside them. -/
def Leaves (cs out : List Char) : Prop :=
  ∀ rest, unquoted .outside (cs ++ rest) = out ++ unquoted .outside rest

namespace Leaves

variable {a b out out' : List Char}

theorem nil : Leaves [] [] := fun _ => rfl

theorem append (left : Leaves a out) (right : Leaves b out') : Leaves (a ++ b) (out ++ out') := by
  intro rest
  rw [List.append_assoc, left, right, List.append_assoc]

theorem cons {c : Char} (other : c ≠ '\x22') (right : Leaves b out) :
    Leaves (c :: b) (c :: out) := by
  intro rest
  rw [List.cons_append, unquoted, if_neg other, right, List.cons_append]

theorem of_forall_ne (plain : ∀ c ∈ a, c ≠ '\x22') : Leaves a a := by
  induction a with
  | nil => exact nil
  | cons c cs ih =>
    rw [List.forall_mem_cons] at plain
    exact cons plain.1 (ih plain.2)

theorem unique (left : Leaves a out) (right : Leaves a out') : out = out' := by
  have same := (left []).symm.trans (right [])
  simpa using same

end Leaves

theorem unquoted_of_isInner {inner : List Char} (isInner : IsInner inner) (rest : List Char) :
    unquoted .inside (inner ++ rest) = unquoted .inside rest := by
  induction isInner with
  | nil => rfl
  | unescaped _ notQuote notEscape _ ih =>
    rw [List.cons_append, unquoted, if_neg notQuote, if_neg notEscape, ih]
  | escaped _ _ ih => simpa using ih
  | @unit digits cs _ hex _ ih =>
    have passed : ∀ more : List Char, more.all isHexDigit = true →
        unquoted .inside (more ++ (cs ++ rest)) = unquoted .inside (cs ++ rest) := by
      intro more
      induction more with
      | nil => exact fun _ => rfl
      | cons c more further =>
        intro hex
        rw [List.all_cons, Bool.and_eq_true] at hex
        have notQuote : c ≠ '\x22' := by
          rintro rfl
          exact absurd hex.1 (by decide)
        have notEscape : c ≠ '\\' := by
          rintro rfl
          exact absurd hex.1 (by decide)
        rw [List.cons_append, unquoted, if_neg notQuote, if_neg notEscape, further hex.2]
    simpa [List.append_assoc, ih] using passed digits hex

theorem leaves_of_isString {cs : List Char} (isString : IsString cs) : Leaves cs [] := by
  obtain ⟨inner, isInner, rfl⟩ := isString
  intro rest
  have closed : unquoted .inside ('\x22' :: rest) = unquoted .outside rest := by simp
  rw [List.cons_append, List.append_assoc, unquoted, if_pos rfl, unquoted_of_isInner isInner]
  exact closed

/-! ### Foreign letters -/

/-- The letters with which the words for numbers begin that are not finite. -/
def isForeign (c : Char) : Bool := c == 'N' || c == 'I'

/-- The character begins no string, and is no foreign letter. -/
def isPlain (c : Char) : Bool := c != '\x22' && !isForeign c

/-- All strings are closed, and a foreign letter stands outside them exactly if the statement
holds. -/
def Tells (cs : List Char) (p : Prop) : Prop :=
  ∃ out, Leaves cs out ∧ (out.any isForeign = true ↔ p)

namespace Tells

variable {a b : List Char} {p q : Prop}

theorem congr (tells : Tells a p) (same : p ↔ q) : Tells a q := by
  rwa [← propext same]

theorem unique (left : Tells a p) (right : Tells a q) : p ↔ q := by
  obtain ⟨out, leaves, foreign⟩ := left
  obtain ⟨out', leaves', foreign'⟩ := right
  rw [← foreign, ← foreign', leaves.unique leaves']

theorem append (left : Tells a p) (right : Tells b q) : Tells (a ++ b) (p ∨ q) := by
  obtain ⟨out, leaves, foreign⟩ := left
  obtain ⟨out', leaves', foreign'⟩ := right
  refine ⟨out ++ out', leaves.append leaves', ?_⟩
  rw [List.any_append, Bool.or_eq_true, foreign, foreign']

theorem of_plain (plain : a.all isPlain = true) : Tells a False := by
  refine ⟨a, .of_forall_ne fun c member => ?_, ?_⟩
  · have other := List.all_eq_true.mp plain c member
    simp only [isPlain, Bool.and_eq_true, bne_iff_ne] at other
    exact other.1
  · rw [iff_false, List.any_eq_true]
    rintro ⟨c, member, foreign⟩
    have other := List.all_eq_true.mp plain c member
    simp [isPlain, foreign] at other

theorem of_foreign (closed : ∀ c ∈ a, c ≠ '\x22') (foreign : a.any isForeign = true) :
    Tells a True :=
  ⟨a, .of_forall_ne closed, iff_of_true foreign trivial⟩

theorem plain_append (plain : a.all isPlain = true) (right : Tells b q) : Tells (a ++ b) q :=
  ((of_plain plain).append right).congr (iff_of_eq (false_or q))

theorem append_plain (left : Tells a p) (plain : b.all isPlain = true) : Tells (a ++ b) p :=
  (left.append (of_plain plain)).congr (iff_of_eq (or_false p))

theorem cons {c : Char} (plain : isPlain c = true) (right : Tells b q) : Tells (c :: b) q :=
  plain_append (a := [c]) (by simp [plain]) right

theorem intercalate {α : Type} {r : α → Prop} (plain : a.all isPlain = true) {items : List α}
    {lines : List (List Char)}
    (all : List.Forall₂ (fun item line => Tells line (r item)) items lines) :
    Tells (a.intercalate lines) (∃ item ∈ items, r item) := by
  induction all with
  | nil => exact (of_plain rfl).congr (by simp)
  | @cons item line rest others first more ih =>
    rw [List.exists_mem_cons_iff]
    cases more with
    | nil => simpa using first
    | cons second more =>
      rw [List.intercalate_cons_cons]
      exact (first.append_plain plain).append ih

end Tells

theorem tells_of_isString {cs : List Char} (isString : IsString cs) : Tells cs False :=
  ⟨[], leaves_of_isString isString, by simp⟩

theorem isPlain_of_isDigit {c : Char} (digit : c.isDigit = true) : isPlain c = true := by
  have other : c ≠ '\x22' ∧ c ≠ 'N' ∧ c ≠ 'I' :=
    ⟨ne_of_isDigit digit (by decide), ne_of_isDigit digit (by decide),
      ne_of_isDigit digit (by decide)⟩
  simp [isPlain, isForeign, other]

theorem IsNumber.all_isPlain {cs : List Char} (number : IsNumber cs) : cs.all isPlain = true := by
  have others : ∀ c ∈ ['+', '-', '.', 'e', 'E'], isPlain c = true := by
    simp [isPlain, isForeign]
  refine List.all_eq_true.mpr fun c member => ?_
  rcases number.isDigit_or_mem member with digit | other
  · exact isPlain_of_isDigit digit
  · exact others c other

theorem all_isPlain_of_isSpace {cs : List Char} (space : cs.all isSpace = true) :
    cs.all isPlain = true := by
  refine List.all_eq_true.mpr fun c member => ?_
  have blank := List.all_eq_true.mp space c member
  simp only [isSpace, Bool.or_eq_true, beq_iff_eq] at blank
  rcases blank with ((rfl | rfl) | rfl) | rfl <;> decide

theorem Padded.tells {s : Padded} {p : Prop} (blank : s.IsBlank) (part : Tells s.part p) :
    Tells s.text p :=
  .plain_append (all_isPlain_of_isSpace blank.1)
    (part.append_plain (all_isPlain_of_isSpace blank.2))

/-- Outside the strings of a value no foreign letter stands. -/
theorem tells_of_isValue {cs : List Char} (value : IsValue cs) : Tells cs False := by
  have row : ∀ {α : Type} {text : α → List Char} {items : List α},
      (∀ item ∈ items, Tells (text item) False) → Tells (row (items.map text)) False := by
    intro α text items each
    have all := Tells.intercalate (a := [',']) (r := fun _ => False) (by decide)
      (List.forall₂_map_right_iff.mpr (List.forall₂_same.mpr each))
    exact all.congr (by simp)
  induction value with
  | @word cs member =>
    have words : ∀ cs ∈ ["null".toList, "true".toList, "false".toList],
        cs.all isPlain = true := by
      simp [isPlain, isForeign]
    exact .of_plain (words cs member)
  | number number => exact .of_plain number.all_isPlain
  | string string => exact tells_of_isString string
  | emptyArray space | emptyObject space =>
    exact .cons (by decide) (.append_plain (.of_plain (all_isPlain_of_isSpace space)) (by decide))
  | @array items _ blank _ ih =>
    have each : ∀ item ∈ items, Tells item.text False :=
      fun item member => Padded.tells (blank item member) (ih item member)
    exact .cons (by decide) ((row each).append_plain (by decide))
  | @object members _ names blank _ ih =>
    have each : ∀ member ∈ members, Tells (memberText member) False := by
      intro member inside
      have name := Padded.tells (names member inside).1 (tells_of_isString (names member inside).2)
      have value := Padded.tells (blank member inside) (ih member inside)
      exact (name.append (.cons (by decide) value)).congr (or_self_iff)
    exact .cons (by decide) ((row each).append_plain (by decide))

theorem tells_of_isText {cs : List Char} (isText : IsText cs) : Tells cs False := by
  obtain ⟨s, blank, value, rfl⟩ := isText
  exact Padded.tells blank (tells_of_isValue value)

end Deployments.Json.Grammar
