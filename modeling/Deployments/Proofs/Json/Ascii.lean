import Deployments.Proofs.Json.Valid

/-!
All characters of written text are ASCII, whatever characters are in its strings.
-/

namespace Deployments.Json

open Decimal Grammar

def IsAscii (cs : List Char) : Prop := ∀ c ∈ cs, c.toNat < 0x80

theorem IsAscii.append {a b : List Char} (left : IsAscii a) (right : IsAscii b) :
    IsAscii (a ++ b) :=
  List.forall_mem_append.mpr ⟨left, right⟩

theorem IsAscii.cons {c : Char} {cs : List Char} (small : c.toNat < 0x80) (ascii : IsAscii cs) :
    IsAscii (c :: cs) :=
  List.forall_mem_cons.mpr ⟨small, ascii⟩

theorem isAscii_nil : IsAscii [] := nofun

theorem isAscii_flatMap {α : Type} {f : α → List Char} (all : ∀ a, IsAscii (f a))
    (items : List α) : IsAscii (items.flatMap f) := by
  intro c member
  obtain ⟨a, _, inside⟩ := List.mem_flatMap.mp member
  exact all a c inside

theorem isAscii_intercalate {separator : List Char} (ascii : IsAscii separator)
    {lines : List (List Char)} (all : ∀ line ∈ lines, IsAscii line) :
    IsAscii (separator.intercalate lines) := by
  induction lines with
  | nil => nofun
  | cons line lines ih =>
    rw [List.forall_mem_cons] at all
    cases lines with
    | nil => simpa using all.1
    | cons next lines =>
      rw [List.intercalate_cons_cons]
      exact (all.1.append ascii).append (ih all.2)

theorem isAscii_line (depth : Nat) : IsAscii ('\n' :: margin depth) := by
  simp [IsAscii, margin]

theorem isAscii_bracketed {opening closing : Char} (opens : opening.toNat < 0x80)
    (closes : closing.toNat < 0x80) (depth : Nat) {lines : List (List Char)}
    (all : ∀ line ∈ lines, IsAscii line) :
    IsAscii (bracketed opening closing depth lines) := by
  by_cases empty : lines = []
  · subst empty
    exact .cons opens (.cons closes isAscii_nil)
  · have separator : IsAscii (',' :: '\n' :: margin (depth + 1)) :=
      .cons (by decide) (isAscii_line _)
    have row := isAscii_intercalate separator all
    rw [bracketed_eq _ _ _ empty]
    exact .cons opens (.append (.append (isAscii_line _) (row.append (isAscii_line _)))
      (.cons closes isAscii_nil))

theorem isAscii_hexDigits (width n : Nat) : IsAscii (Text.hexDigits width n) := by
  have digit : ∀ m : Fin 16, (Text.hexDigit m).toNat < 0x80 := by decide
  induction width generalizing n with
  | zero => nofun
  | succ width ih =>
    have last := digit ⟨n % 16, Nat.mod_lt n (by decide)⟩
    exact (ih (n / 16)).append (.cons last isAscii_nil)

theorem isAscii_unit (unit : Nat) : IsAscii ('\\' :: 'u' :: Text.hexDigits 4 unit) :=
  .cons (by decide) (.cons (by decide) (isAscii_hexDigits 4 unit))

theorem isAscii_escaped (c : Char) : IsAscii (escaped c) := by
  rcases escaped_cases c with ⟨letter, member, same⟩ | ⟨_, printable, _, _, same⟩ | same
  · have letters : ∀ pair ∈ lettered, pair.2.toNat < 0x80 := by simp [lettered]
    rw [same]
    exact .cons (by decide) (.cons (letters _ member) isAscii_nil)
  · rw [same]
    exact .cons (by omega) isAscii_nil
  · rw [same]
    exact isAscii_flatMap isAscii_unit _

theorem isAscii_escapedPoint (p : Point) : IsAscii (escapedPoint p) := by
  cases p with
  | char c => exact isAscii_escaped c
  | surrogate n => exact isAscii_flatMap isAscii_unit _

theorem isAscii_quoted (s : Text) : IsAscii (quoted s) :=
  .cons (by decide)
    (.append (isAscii_flatMap isAscii_escapedPoint _) (.cons (by decide) isAscii_nil))

theorem isAscii_of_isNumber {cs : List Char} (number : IsNumber cs) : IsAscii cs := by
  intro c member
  rcases number.isDigit_or_mem member with digit | other
  · simp only [Char.isDigit, Bool.and_eq_true, decide_eq_true_eq] at digit
    have upper : c.toNat ≤ 57 := digit.2
    omega
  · have others : ∀ c ∈ ['+', '-', '.', 'e', 'E'], c.toNat < 0x80 := by simp
    exact others c other

theorem hereditary_isAscii : Hereditary IsShown fun _ cs => IsAscii cs where
  null := by simp [IsAscii]
  bool b := by cases b <;> simp [IsAscii]
  int n := isAscii_of_isNumber (isNumber_integer n)
  float shown := isAscii_of_isNumber (NumberFormat.json.isNumber_write shown.1 shown.2)
  text s := isAscii_quoted s
  list depth _ _ all := isAscii_bracketed (by decide) (by decide) depth (forall_mem_of_forall₂ all)
  object depth _ parts all := by
    refine isAscii_bracketed (by decide) (by decide) depth fun line member => ?_
    obtain ⟨part, inside, rfl⟩ := List.mem_map.mp member
    have value := forall_mem_of_forall₂ (all.imp fun _ _ => And.right) part inside
    exact (isAscii_quoted part.1).append (.cons (by decide) (.cons (by decide) value))

theorem isAscii_of_render {x : Json} (shown : x.Numbers IsShown) {text : String}
    (rendered : x.render = .ok text) : IsAscii text.toList := by
  obtain ⟨cs, written, rfl⟩ := map_eq_ok_iff.mp rendered
  rw [String.toList_ofList]
  exact hereditary_isAscii.write 0 x shown cs written

end Deployments.Json
