import Deployments.Proofs.Json.Leaves
import Deployments.Proofs.Reading.Kept

/-!
What holds of all written text. A property that passes from lines to the brackets around them is
proved for leaves and brackets alone.
-/

namespace Deployments.Json

open Decimal

/-- All numbers in the document have a property. -/
def Numbers (p : Binary64 → Prop) (x : Json) : Prop := ∀ y, float y ∈ x.leaves → p y

section Numbers

variable {p : Binary64 → Prop}

@[simp] theorem numbers_null : null.Numbers p := by
  simp [Numbers]

@[simp] theorem numbers_bool (b : Bool) : (bool b).Numbers p := by
  simp [Numbers]

@[simp] theorem numbers_int (n : Int) : (int n).Numbers p := by
  simp [Numbers]

@[simp] theorem numbers_float (x : Binary64) : (float x).Numbers p ↔ p x := by
  simp [Numbers]

@[simp] theorem numbers_text (s : Text) : (text s).Numbers p := by
  simp [Numbers]

theorem numbers_list {items : List Json} :
    (list items).Numbers p ↔ ∀ x ∈ items, x.Numbers p := by
  simp only [Numbers, leaves_list, List.mem_flatMap]
  exact ⟨fun all x member y leaf => all y ⟨x, member, leaf⟩,
    fun all y ⟨x, member, leaf⟩ => all x member y leaf⟩

theorem numbers_object {members : List (Text × Json)} :
    (object members).Numbers p ↔ ∀ member ∈ members, member.2.Numbers p := by
  simp only [Numbers, leaves_object, List.mem_flatMap]
  exact ⟨fun all member place y leaf => all y ⟨member, place, leaf⟩,
    fun all y ⟨member, place, leaf⟩ => all member place y leaf⟩

end Numbers

/-- The number is finite, and in its one form. -/
def IsShown (x : Binary64) : Prop := x.Canonical ∧ x.isFinite = true

/-! ### Induction on written text -/

def memberLine (member : Text × List Char) : List Char :=
  quoted member.1 ++ ':' :: ' ' :: member.2

theorem writeItems_cons_iff {depth : Nat} {x : Json} {xs : List Json} {lines : List (List Char)} :
    writeItems depth (x :: xs) = .ok lines ↔ ∃ head, x.write depth = .ok head ∧
      ∃ tail, writeItems depth xs = .ok tail ∧ head :: tail = lines := by
  simp only [writeItems, bind, bind_eq_ok_iff, Except.ok.injEq]

theorem writeMembers_cons_iff {depth : Nat} {key : Text} {x : Json} {rest : List (Text × Json)}
    {lines : List (List Char)} :
    writeMembers depth ((key, x) :: rest) = .ok lines ↔ ∃ head, x.write depth = .ok head ∧
      ∃ tail, writeMembers depth rest = .ok tail ∧ memberLine (key, head) :: tail = lines := by
  simp only [writeMembers, bind, bind_eq_ok_iff, Except.ok.injEq, memberLine]

/-- A property that documents have together with their texts: it holds of leaves, whose numbers are
of a given kind, and of brackets if it holds of what stands between them. -/
structure Hereditary (p : Binary64 → Prop) (P : Json → List Char → Prop) : Prop where
  null : P null "null".toList
  bool (b : Bool) : P (bool b) (if b then "true".toList else "false".toList)
  int (n : Int) : P (int n) (integer n)
  float {x : Binary64} : p x → P (float x) (NumberFormat.json.write x).toList
  text (s : Text) : P (text s) (quoted s)
  list (depth : Nat) (items : List Json) (lines : List (List Char)) :
    List.Forall₂ P items lines → P (list items) (bracketed '[' ']' depth lines)
  object (depth : Nat) (members : List (Text × Json)) (parts : List (Text × List Char)) :
    List.Forall₂ (fun member part => member.1 = part.1 ∧ P member.2 part.2) members parts →
      P (object members) (bracketed '\x7b' '\x7d' depth (parts.map memberLine))

namespace Hereditary

variable {p : Binary64 → Prop} {P : Json → List Char → Prop}

theorem write_int (hereditary : Hereditary p P) {n : Int} {depth : Nat} {cs : List Char}
    (written : (Json.int n).write depth = .ok cs) : P (.int n) cs := by
  rw [Json.write] at written
  by_cases writable : Writable n
  · rw [integer?_of_writable writable] at written
    cases written
    rw [String.toList_ofList]
    exact hereditary.int n
  · rw [integer?_of_not_writable writable] at written
    cases written

mutual

/-- All documents have the property together with their texts. -/
theorem write (hereditary : Hereditary p P) (depth : Nat) :
    (x : Json) → x.Numbers p → ∀ cs, x.write depth = .ok cs → P x cs
  | .null, _, cs, written => by
    cases written
    exact hereditary.null
  | .bool b, _, cs, written => by
    cases written
    exact hereditary.bool b
  | .int n, _, cs, written => hereditary.write_int written
  | .float y, numbers, cs, written => by
    cases written
    exact hereditary.float ((numbers_float y).mp numbers)
  | .text s, _, cs, written => by
    cases written
    exact hereditary.text s
  | .list items, numbers, cs, written => by
    rw [Json.write] at written
    obtain ⟨lines, items_, rfl⟩ := map_eq_ok_iff.mp written
    exact hereditary.list depth items lines
      (writeItems hereditary (depth + 1) items (numbers_list.mp numbers) lines items_)
  | .object members, numbers, cs, written => by
    rw [Json.write] at written
    obtain ⟨lines, members_, rfl⟩ := map_eq_ok_iff.mp written
    obtain ⟨parts, rfl, all⟩ :=
      writeMembers hereditary (depth + 1) members (numbers_object.mp numbers) lines members_
    exact hereditary.object depth members parts all

theorem writeItems (hereditary : Hereditary p P) (depth : Nat) :
    (items : List Json) → (∀ x ∈ items, x.Numbers p) →
    ∀ lines, Json.writeItems depth items = .ok lines → List.Forall₂ P items lines
  | [], _, lines, written => by
    cases written
    exact .nil
  | x :: xs, numbers, lines, written => by
    obtain ⟨head, first, tail, others, rfl⟩ := writeItems_cons_iff.mp written
    rw [List.forall_mem_cons] at numbers
    exact .cons (write hereditary depth x numbers.1 head first)
      (writeItems hereditary depth xs numbers.2 tail others)

theorem writeMembers (hereditary : Hereditary p P) (depth : Nat) :
    (members : List (Text × Json)) → (∀ member ∈ members, member.2.Numbers p) →
    ∀ lines, Json.writeMembers depth members = .ok lines →
      ∃ parts : List (Text × List Char), lines = parts.map memberLine ∧
        List.Forall₂ (fun member part => member.1 = part.1 ∧ P member.2 part.2) members parts
  | [], _, lines, written => by
    cases written
    exact ⟨[], rfl, .nil⟩
  | (key, x) :: rest, numbers, lines, written => by
    obtain ⟨head, first, tail, others, rfl⟩ := writeMembers_cons_iff.mp written
    rw [List.forall_mem_cons] at numbers
    obtain ⟨parts, rfl, all⟩ := writeMembers hereditary depth rest numbers.2 tail others
    have value := write hereditary depth x numbers.1 head first
    exact ⟨(key, head) :: parts, rfl, .cons ⟨rfl, value⟩ all⟩

end

end Hereditary

end Deployments.Json
